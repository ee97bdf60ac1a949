import Mailroom.Assembly.Refusal
import Mailroom.Assembly.Symbols
import Mailroom.Text.Similarity

/-!
# Builds

From tokens to words.  A build is all or nothing: the first slot that cannot be encoded
refuses the whole program, and then the build holds no orders.

Main definitions:

- `Slot.order` encodes one slot.
- `Build.ofTokens` builds a program; what is left after a refusal is a build as well.
- `Build.words` are the numbers of a build.
-/

namespace Mailroom

open Text

/-- A complaint about a located instruction. -/
def Located.complain {α : Type} (i : Located α) (complaint : Complaint) : Refusal :=
  .report ⟨complaint, some i.location, some i.sourceLine, none⟩

/-! ## Encoding -/

/-- The mailbox that a label stands for, for the branch instruction `i`. -/
def resolve (symbols : SymbolTable) (i : Located Instruction) (label : String) :
    Except Refusal Address :=
  match symbols.find? label with
  | none =>
    .error (i.complain (.undefinedLabel label (closeMatches label.toList symbols.keys)))
  | some binding =>
    if h : binding.index < 100 then .ok ⟨binding.index, h⟩
    else .error (i.complain (.labelOutOfRange label binding.index))

/-- The order in a slot.  A mailbox number above 99 is reported at its instruction; a
negative one cannot come from a source text. -/
def Slot.order (symbols : SymbolTable) (slot : Slot) : Except Refusal Order :=
  match slot.instruction.value with
  | .plain op _ => .ok (.plain op)
  | .access op address =>
    if 99 < address then
      .error (slot.instruction.complain (.mailboxOutOfRange address))
    else
      match Address.ofInt? address with
      | some a => .ok (.access op a)
      | none => .error (.badAddress ⟨address⟩)
  | .branch op label => (resolve symbols slot.instruction label).map (.branch op)

/-- The orders of a program, or the first refusal. -/
def ordersOf (symbols : SymbolTable) : List Slot → Except Refusal (List Order)
  | [] => .ok []
  | slot :: rest =>
    match slot.order symbols with
    | .error e => .error e
    | .ok order => (ordersOf symbols rest).map (order :: ·)

/-! ## Builds -/

/-- The state of a program after building it. -/
structure Build where
  slots : List Slot
  symbols : SymbolTable
  orders : List Order
  deriving DecidableEq, Repr

namespace Build

/-- The build of no program. -/
def empty : Build :=
  ⟨[], .empty, []⟩

/-- The numbers of the orders. -/
def words (b : Build) : List Int :=
  b.orders.map Order.word

/-- Build a program.  After a duplicate label the build has slots only; after a slot that
cannot be encoded it has the symbols too. -/
def ofTokens (strict : Bool) (tokens : List Token) : Build × Journal Refusal Unit :=
  let slots := Slot.ofTokens tokens
  let bound := symbolsOf strict slots
  let found := Notice.slotsFound slots.length :: bound.notices
  match bound.outcome with
  | .error d => (⟨slots, .empty, []⟩, ⟨found, .error (.report d)⟩)
  | .ok symbols =>
    let found := found ++ [.labelsFound symbols.size]
    match ordersOf symbols slots with
    | .error e => (⟨slots, symbols, []⟩, ⟨found, .error e⟩)
    | .ok orders =>
      (⟨slots, symbols, orders⟩, ⟨found ++ [.wordsEncoded orders.length], .ok ()⟩)

end Build

end Mailroom
