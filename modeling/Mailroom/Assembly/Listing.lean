import Mailroom.Assembly.Build

/-!
# Listings

The printed forms of a build: the listing with its symbol section, and the symbol file.

Main definitions:

- `Build.rows` pairs each word with its instruction, and `ListingRow.text` lays a row out.
- `Build.listing` is the listing, and `Build.symbolFile` the symbol file.
-/

namespace Mailroom

open Text

/-- One instruction in a listing. -/
structure ListingRow where
  address : Nat
  word : Int
  line : Int
  source : String
  label : Option String
  deriving DecidableEq, Repr

namespace ListingRow

/-- The columns of a row. -/
def text (row : ListingRow) : String :=
  padLeft 4 (decimal row.address) ++ "  " ++ padLeft 4 (decimal row.word) ++ "  " ++
    padLeft 5 (decimal row.line) ++ "  " ++ row.source

/-- The line above a row that shows its label; a label without a name is not shown. -/
def labelLines (row : ListingRow) : List String :=
  match row.label with
  | none => []
  | some label => if label = "" then [] else [padRight 20 "" ++ "." ++ label]

/-- The lines of a row in a listing. -/
def lines (row : ListingRow) : List String :=
  row.labelLines ++ [row.text]

end ListingRow

/-- A line of `n` equal characters. -/
def rule (n : Nat) (c : Char) : String :=
  String.ofList (List.replicate n c)

namespace Build

/-- The row of the order with the given number. -/
def row (index : Nat) (slot : Slot) (order : Order) : ListingRow :=
  ⟨index, order.word, slot.instruction.location.line, slot.instruction.value.text,
    slot.label.map (·.value)⟩

/-- The rows of the slots from the given number on, as far as there are orders. -/
def rowsFrom (index : Nat) : List Slot → List Order → List ListingRow
  | slot :: slots, order :: orders => row index slot order :: rowsFrom (index + 1) slots orders
  | _, _ => []

/-- One row for each order. -/
def rows (b : Build) : List ListingRow :=
  rowsFrom 0 b.slots b.orders

/-- The lines of the symbol section of a listing. -/
def symbolLines (b : Build) : List String :=
  b.symbols.indices.map fun s => padRight 20 s.1 ++ " = " ++ twoDigits s.2

/-- The lines of a listing. -/
def listingLines (b : Build) : List String :=
  ["Little Man Assembler Listing", rule 40 '=', "", "Addr  Word   Line  Source", rule 40 '-']
    ++ b.rows.flatMap ListingRow.lines ++ ["", "Symbol Table", rule 30 '-'] ++ b.symbolLines

/-- The listing: the rows, and then the symbols in code point order. -/
def listing (b : Build) : String :=
  "\n".intercalate b.listingLines

/-- The lines of the symbol file. -/
def symbolFileLines (b : Build) : List String :=
  ["# Symbol table", "# Generated by lmasm"] ++
    b.symbols.indices.map fun s => s.1 ++ " " ++ twoDigits s.2

/-- The symbol file: two lines of heading and one line for each symbol. -/
def symbolFile (b : Build) : String :=
  String.join (b.symbolFileLines.map (· ++ "\n"))

end Build

end Mailroom
