import Mailroom.Assembly.Token
import Mailroom.Notice
import Mailroom.Table

/-!
# Slots and symbols

Every instruction of a program fills one slot, and the slot number is the mailbox that
the instruction is loaded into.  A label stands on the instruction directly after it; a
label before another label, or at the end, stands on nothing.

Main definitions:

- `Slot.ofTokens` pairs instructions with their labels.
- `SymbolTable` gives each label its slot, and `bindLabels` fills it; of two slots with
  one label the later one counts, unless labels are strict.
-/

namespace Mailroom

/-! ## Slots -/

/-- An instruction in its place, with the label that stands on it. -/
structure Slot where
  instruction : Located Instruction
  label : Option (Located String)
  deriving DecidableEq, Repr

namespace Slot

/-- The slots of the tokens after the given token, which is kept only if it is a label. -/
def ofTokensAfter (previous : Option (Located String)) : List Token → List Slot
  | [] => []
  | .label name :: rest => ofTokensAfter (some name) rest
  | .instruction i :: rest => ⟨i, previous⟩ :: ofTokensAfter none rest

/-- A label is kept for the next token only. -/
@[simp] theorem ofTokensAfter_label (previous : Option (Located String))
    (name : Located String) (rest : List Token) :
    ofTokensAfter previous (.label name :: rest) = ofTokensAfter (some name) rest :=
  rfl

/-- An instruction fills a slot with the label before it. -/
@[simp] theorem ofTokensAfter_instruction (previous : Option (Located String))
    (i : Located Instruction) (rest : List Token) :
    ofTokensAfter previous (.instruction i :: rest) =
      ⟨i, previous⟩ :: ofTokensAfter none rest :=
  rfl

/-- The slots of a program. -/
def ofTokens (tokens : List Token) : List Slot :=
  ofTokensAfter none tokens

end Slot

/-! ## Symbols -/

/-- Where a label stands: the slot, and the place in the source. -/
structure Binding where
  index : Nat
  location : SourceLocation
  deriving DecidableEq, Repr

/-- The labels of a program with their bindings. -/
abbrev SymbolTable :=
  Table String Binding

/-- The labels with their slots, in code point order. -/
def SymbolTable.indices (symbols : SymbolTable) : List (String × Nat) :=
  symbols.entries.map fun entry => (entry.1, entry.2.index)

/-- A label that stands on a second slot. -/
def duplicate (label : Located String) (earlier : Binding) : Diagnostic :=
  ⟨.duplicateLabel label.value (some earlier.location), some label.location,
    some label.sourceLine, none⟩

/-- Bind one label to a slot.  A label that is bound already is refused when labels are
strict; otherwise the new binding replaces the one before it. -/
def bindLabel (strict : Bool) (index : Nat) (symbols : SymbolTable) (label : Located String) :
    Journal Diagnostic SymbolTable := do
  match symbols.find? label.value with
  | some earlier =>
    if strict then
      Journal.refuse (duplicate label earlier)
    else
      Journal.note (.labelRedefined label.location label.value earlier.location)
  | none => pure ()
  Journal.note (.labelBound label.value index)
  return symbols.insert label.value ⟨index, label.location⟩

/-- A label without a binding is bound. -/
theorem bindLabel_new {strict : Bool} {index : Nat} {symbols : SymbolTable}
    {label : Located String} (h : symbols.find? label.value = none) :
    bindLabel strict index symbols label =
      ⟨[.labelBound label.value index],
        .ok (symbols.insert label.value ⟨index, label.location⟩)⟩ := by
  simp only [bindLabel, h]
  rfl

/-- A second binding is refused when labels are strict. -/
theorem bindLabel_strict {index : Nat} {symbols : SymbolTable} {label : Located String}
    {earlier : Binding} (h : symbols.find? label.value = some earlier) :
    bindLabel true index symbols label = ⟨[], .error (duplicate label earlier)⟩ := by
  simp only [bindLabel, h]
  rfl

/-- A second binding replaces the first one, with a warning, when labels are not strict. -/
theorem bindLabel_permissive {index : Nat} {symbols : SymbolTable} {label : Located String}
    {earlier : Binding} (h : symbols.find? label.value = some earlier) :
    bindLabel false index symbols label =
      ⟨[.labelRedefined label.location label.value earlier.location,
        .labelBound label.value index],
        .ok (symbols.insert label.value ⟨index, label.location⟩)⟩ := by
  simp only [bindLabel, h]
  rfl

/-- Bind the labels of slots of which the first has the given number. -/
def bindLabels (strict : Bool) (index : Nat) (symbols : SymbolTable) :
    List Slot → Journal Diagnostic SymbolTable
  | [] => pure symbols
  | slot :: rest =>
    match slot.label with
    | none => bindLabels strict (index + 1) symbols rest
    | some label => do
      let symbols ← bindLabel strict index symbols label
      bindLabels strict (index + 1) symbols rest

/-- The symbols of a program. -/
def symbolsOf (strict : Bool) (slots : List Slot) : Journal Diagnostic SymbolTable :=
  bindLabels strict 0 .empty slots

end Mailroom
