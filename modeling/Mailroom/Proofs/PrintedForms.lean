import Mailroom.Assembly.Listing
import Mailroom.Proofs.Restating

/-!
# Reading listings and symbol files

A listing and a symbol file are read back from their texts: the words with their addresses,
and the symbols with theirs.

Main definitions:

- `columnNumber?`, `filledNumber?` and `signedNumber?` read the number in a column.
- `readRows?` and `readListedSymbols?` read a listing, and `readSymbolFile?` a symbol file.
- `Build.Printable` says that the texts in a build keep to their lines and columns.

Main results:

- Theorem `twoDigits_injective`: different integers are printed differently.
- Theorem `Build.readRows?_listing`: the rows of a build are read back from its listing.
- Theorems `Build.readListedSymbols?_listing` and `Build.readSymbolFile?_symbolFile`: both
  texts give the symbols of a build.
-/

namespace Mailroom

open Text

/-! ## Readers -/

/-- The parts of a line between spaces. -/
def columnsOf (line : List Char) : List (List Char) :=
  (line.splitOn ' ').filter (· ≠ [])

/-- The number in a column of digits. -/
def columnNumber? (column : List Char) : Option Nat :=
  if column.all Char.isDigit = true then some (numeralValue column) else none

/-- The number in a column of digits that is not empty. -/
def filledNumber? (column : List Char) : Option Nat :=
  if column = [] then none else columnNumber? column

/-- The number in a column of digits, after a minus sign if it is negative. -/
def signedNumber? : List Char → Option Int
  | '-' :: digits => (filledNumber? digits).map fun n : Nat => -(n : Int)
  | digits => (filledNumber? digits).map fun n : Nat => (n : Int)

/-- The address and the word in the first two columns of a line. -/
def readRow? (line : List Char) : Option (Nat × Int) :=
  match columnsOf line with
  | address :: word :: _ => do
    return (← columnNumber? address, ((← columnNumber? word : Nat) : Int))
  | _ => none

/-- A line whose first column begins with a period shows a label. -/
def showsLabel (line : List Char) : Bool :=
  ((columnsOf line).head?.bind List.head?) == some '.'

/-- The addresses and words in a listing, up to its first empty line after the heading. -/
def readRows? (listing : String) : Option (List (Nat × Int)) :=
  ((((listing.toList.splitOn '\n').drop 5).takeWhile (· ≠ [])).filter (!showsLabel ·)).mapM
    readRow?

/-- The symbol in a column for the name and another one for the index. -/
def symbolOf? (name index : List Char) : Option (String × Nat) :=
  (columnNumber? index).map fun n => (String.ofList name, n)

/-- A name and an index, joined by an equals sign. -/
def readListedSymbol? (line : List Char) : Option (String × Nat) :=
  match columnsOf line with
  | [name, ['='], index] => symbolOf? name index
  | _ => none

/-- The symbols in a listing, which stand behind its rows. -/
def readListedSymbols? (listing : String) : Option (List (String × Nat)) :=
  ((((listing.toList.splitOn '\n').drop 5).dropWhile (· ≠ [])).drop 3).mapM readListedSymbol?

/-- A name and an index. -/
def readFiledSymbol? (line : List Char) : Option (String × Nat) :=
  match columnsOf line with
  | [name, index] => symbolOf? name index
  | _ => none

/-- The symbols in a symbol file, behind its heading. -/
def readSymbolFile? (file : String) : Option (List (String × Nat)) :=
  (((file.toList.splitOn '\n').drop 2).filter (· ≠ [])).mapM readFiledSymbol?

/-! ## Columns -/

/-- The columns before and after a space. -/
theorem columnsOf_append_space (first second : List Char) :
    columnsOf (first ++ ' ' :: second) = columnsOf first ++ columnsOf second := by
  rw [columnsOf, List.splitOn_append_cons_self, List.filter_append]
  rfl

/-- Spaces before a line are in no column. -/
theorem columnsOf_spaces_append (n : Nat) (line : List Char) :
    columnsOf (List.replicate n ' ' ++ line) = columnsOf line := by
  induction n with
  | zero => rfl
  | succ n ih =>
    have hspace : List.replicate (n + 1) ' ' ++ line =
        [] ++ ' ' :: (List.replicate n ' ' ++ line) := rfl
    rw [hspace, columnsOf_append_space, ih]
    rfl

/-- Spaces after a line are in no column. -/
theorem columnsOf_append_spaces (n : Nat) (line : List Char) :
    columnsOf (line ++ List.replicate n ' ') = columnsOf line := by
  cases n with
  | zero => rw [List.replicate_zero, List.append_nil]
  | succ n =>
    have hnone : columnsOf (List.replicate n ' ') = [] := by
      have h := columnsOf_spaces_append n []
      rwa [List.append_nil] at h
    rw [List.replicate_succ, columnsOf_append_space, hnone, List.append_nil]

/-- A text without spaces is one column. -/
theorem columnsOf_column {column : List Char} (hne : column ≠ []) (hspace : ' ' ∉ column) :
    columnsOf column = [column] := by
  rw [columnsOf, List.splitOn_eq_singleton hspace]
  simp [hne]

/-- A first text without spaces is the first column. -/
theorem columnsOf_column_append {column : List Char} (hne : column ≠ []) (hspace : ' ' ∉ column)
    (line : List Char) : columnsOf (column ++ ' ' :: line) = column :: columnsOf line := by
  rw [columnsOf_append_space, columnsOf_column hne hspace]
  rfl

/-- There is no space in a number. -/
theorem space_not_mem_of_numeric {cs : List Char} (h : ∀ c ∈ cs, c = '-' ∨ c.isDigit = true) :
    ' ' ∉ cs := by
  intro hmem
  exact absurd (h _ hmem) (by decide)

/-- No line ends within a number. -/
theorem feed_not_mem_decimal (n : Int) : '\n' ∉ (decimal n).toList := by
  intro hmem
  exact absurd (mem_decimal hmem) (by decide)

/-- No line ends within an index. -/
theorem feed_not_mem_twoDigits (n : Int) : '\n' ∉ (twoDigits n).toList := by
  intro hmem
  exact absurd (mem_twoDigits hmem) (by decide)

/-- There is no space in a name. -/
theorem IsName.space_not_mem {x : String} (h : IsName x) : ' ' ∉ x.toList := by
  intro hmem
  exact absurd (h.field _ hmem).1 (by decide)

/-- A number is read back from its column. -/
theorem columnNumber?_decimal (n : Nat) : columnNumber? (decimal n).toList = some n := by
  obtain ⟨hnumeral, hvalue, -⟩ := isNumeral_decimal n
  rw [columnNumber?, if_pos (all_isDigit_iff.mpr hnumeral.digit), hvalue]

/-- A number in two digits is read back from its column. -/
theorem columnNumber?_twoDigits (n : Nat) : columnNumber? (twoDigits n).toList = some n := by
  have hdigits : (twoDigits n).toList.all Char.isDigit = true := by
    have hdecimal := all_isDigit_iff.mpr (isNumeral_decimal n).1.digit
    unfold twoDigits
    split
    · rw [String.toList_append, List.all_append, hdecimal]
      rfl
    · exact hdecimal
  rw [columnNumber?, if_pos hdigits, numeralValue_twoDigits]

/-- A number is read back from its column, which is not empty. -/
theorem filledNumber?_decimal (n : Nat) : filledNumber? (decimal n).toList = some n := by
  rw [filledNumber?, if_neg (decimal_ne_nil n), columnNumber?_decimal]

/-- A number in two digits is read back from its column, which is not empty. -/
theorem filledNumber?_twoDigits (n : Nat) : filledNumber? (twoDigits n).toList = some n := by
  rw [filledNumber?, if_neg (twoDigits_ne_nil n), columnNumber?_twoDigits]

/-- A number without a sign is read as it is. -/
theorem signedNumber?_of_filledNumber? {column : List Char} {n : Nat}
    (h : filledNumber? column = some n) : signedNumber? column = some (n : Int) := by
  unfold signedNumber?
  split
  next digits =>
    -- a minus sign is no digit
    rw [filledNumber?, if_neg (List.cons_ne_nil _ _), columnNumber?, if_neg (by simp)] at h
    contradiction
  next => rw [h, Option.map_some]

/-- The number behind a minus sign. -/
theorem signedNumber?_minus (n : Nat) :
    signedNumber? (decimal (.negSucc n)).toList = some (.negSucc n) := by
  rw [toList_decimal_negSucc, ← toList_decimal, signedNumber?, filledNumber?_decimal]
  rfl

/-- An integer is read back from its column. -/
theorem signedNumber?_decimal (n : Int) : signedNumber? (decimal n).toList = some n := by
  cases n with
  | ofNat n => exact signedNumber?_of_filledNumber? (filledNumber?_decimal n)
  | negSucc n => exact signedNumber?_minus n

/-- An integer in two digits is read back from its column. -/
theorem signedNumber?_twoDigits (n : Int) : signedNumber? (twoDigits n).toList = some n := by
  cases n with
  | ofNat n => exact signedNumber?_of_filledNumber? (filledNumber?_twoDigits n)
  | negSucc n =>
    have hwide : twoDigits (.negSucc n) = decimal (.negSucc n) :=
      if_neg fun h => absurd h.1 (by omega)
    rw [hwide, signedNumber?_minus]

/-- Different integers are printed differently. -/
theorem twoDigits_injective : Function.Injective twoDigits := by
  intro m n h
  have hread := signedNumber?_twoDigits m
  rw [h, signedNumber?_twoDigits] at hread
  exact (Option.some.inj hread).symm

/-- An index is one column. -/
theorem columnsOf_twoDigits (n : Nat) :
    columnsOf (twoDigits n).toList = [(twoDigits n).toList] :=
  columnsOf_column (twoDigits_ne_nil n) (space_not_mem_of_numeric fun _ => mem_twoDigits)

/-! ## Rows -/

/-- A number is put before a line with a space behind it. -/
theorem columnsOf_padLeft (width : Nat) (n : Int) (line : List Char) :
    columnsOf ((padLeft width (decimal n)).toList ++ ' ' :: line) =
      (decimal n).toList :: columnsOf line := by
  rw [padLeft, String.toList_append, String.toList_ofList, List.append_assoc,
    columnsOf_spaces_append, columnsOf_column_append (decimal_ne_nil n)
      (space_not_mem_of_numeric fun _ => mem_decimal)]

namespace ListingRow

variable {row : ListingRow}

/-- The first columns of a row are its address and its word. -/
theorem columnsOf_text (row : ListingRow) :
    ∃ more, columnsOf row.text.toList =
      (decimal row.address).toList :: (decimal row.word).toList :: more := by
  have htext : row.text.toList = (padLeft 4 (decimal row.address)).toList ++ ' ' ::
      (List.replicate 1 ' ' ++ ((padLeft 4 (decimal row.word)).toList ++ ' ' ::
        (' ' :: (padLeft 5 (decimal row.line)).toList ++ ' ' :: ' ' :: row.source.toList))) := by
    simp [text]
  exact ⟨_, by rw [htext, columnsOf_padLeft, columnsOf_spaces_append, columnsOf_padLeft]⟩

/-- The address and the word of a row are read back. -/
theorem readRow?_text (h : 0 ≤ row.word) :
    readRow? row.text.toList = some (row.address, row.word) := by
  obtain ⟨more, hcolumns⟩ := columnsOf_text row
  obtain ⟨word, hword⟩ := Int.eq_ofNat_of_zero_le h
  rw [readRow?, hcolumns]
  simp only [hword, columnNumber?_decimal]
  rfl

/-- A row shows no label in itself. -/
theorem showsLabel_text (row : ListingRow) : showsLabel row.text.toList = false := by
  obtain ⟨more, hcolumns⟩ := columnsOf_text row
  obtain ⟨c, cs, hdecimal⟩ := List.exists_cons_of_ne_nil (decimal_ne_nil row.address)
  have hc : c ≠ '.' := by
    have hmem : c ∈ (decimal row.address).toList := by
      rw [hdecimal]
      exact List.mem_cons_self
    exact (numeric_field (mem_decimal hmem)).2.1
  rw [showsLabel, hcolumns, hdecimal]
  simpa using hc

/-- There is a line above a row for its label only. -/
theorem exists_of_mem_labelLines {line : String} (h : line ∈ row.labelLines) :
    ∃ x, row.label = some x ∧ line = padRight 20 "" ++ "." ++ x := by
  unfold labelLines at h
  split at h
  next => exact absurd h List.not_mem_nil
  next x hx =>
    split at h
    next => exact absurd h List.not_mem_nil
    next => exact ⟨x, hx, List.mem_singleton.mp h⟩

/-- The line above a row shows its label. -/
theorem showsLabel_of_mem_labelLines {line : String} (hlabel : ∀ x ∈ row.label, IsName x)
    (h : line ∈ row.labelLines) : showsLabel line.toList = true := by
  obtain ⟨x, hx, rfl⟩ := exists_of_mem_labelLines h
  have hline : (padRight 20 "" ++ "." ++ x).toList =
      List.replicate 20 ' ' ++ '.' :: x.toList := by
    simp [padRight]
  have hspace : ' ' ∉ '.' :: x.toList := by
    simpa using (hlabel x hx).space_not_mem
  rw [showsLabel, hline, columnsOf_spaces_append,
    columnsOf_column (List.cons_ne_nil _ _) hspace]
  rfl

end ListingRow

/-! ## Symbols -/

/-- A symbol is read back from its line in a listing. -/
theorem readListedSymbol?_line {x : String} (hx : IsName x) (n : Nat) :
    readListedSymbol? (padRight 20 x ++ " = " ++ twoDigits n).toList = some (x, n) := by
  have hline : (padRight 20 x ++ " = " ++ twoDigits n).toList =
      (x.toList ++ List.replicate (20 - x.toList.length) ' ') ++ ' ' ::
        (['='] ++ ' ' :: (twoDigits n).toList) := by
    simp [padRight]
  have hcolumns : columnsOf (padRight 20 x ++ " = " ++ twoDigits n).toList =
      [x.toList, ['='], (twoDigits n).toList] := by
    rw [hline, columnsOf_append_space, columnsOf_append_spaces,
      columnsOf_column hx.ne_nil hx.space_not_mem, columnsOf_append_space,
      columnsOf_twoDigits]
    rfl
  rw [readListedSymbol?, hcolumns]
  simp only [symbolOf?, columnNumber?_twoDigits, Option.map_some, String.ofList_toList]

/-- A symbol is read back from its line in a symbol file. -/
theorem readFiledSymbol?_line {x : String} (hx : IsName x) (n : Nat) :
    readFiledSymbol? (x ++ " " ++ twoDigits n).toList = some (x, n) := by
  have hline : (x ++ " " ++ twoDigits n).toList = x.toList ++ ' ' :: (twoDigits n).toList := by
    simp
  rw [readFiledSymbol?, hline, columnsOf_column_append hx.ne_nil hx.space_not_mem,
    columnsOf_twoDigits]
  simp only [symbolOf?, columnNumber?_twoDigits, Option.map_some, String.ofList_toList]

/-! ## Whole texts -/

/-- Lines that are each read back are read back together. -/
theorem mapM_map_eq_some {α β γ : Type} {line : α → β} {read : β → Option γ} {value : α → γ}
    {items : List α} (h : ∀ a ∈ items, read (line a) = some (value a)) :
    (items.map line).mapM read = some (items.map value) := by
  induction items with
  | nil => rfl
  | cons a rest ih =>
    rw [List.map_cons, List.mapM_cons, h a List.mem_cons_self,
      ih fun b hb => h b (List.mem_cons_of_mem _ hb)]
    rfl

/-- Without the lines that show labels there is one line for each row. -/
theorem filter_showsLabel_lines {rows : List ListingRow}
    (h : ∀ row ∈ rows, ∀ x ∈ row.label, IsName x) :
    ((rows.flatMap ListingRow.lines).map String.toList).filter (!showsLabel ·) =
      rows.map (·.text.toList) := by
  induction rows with
  | nil => rfl
  | cons row rest ih =>
    have hlabels : (row.labelLines.map String.toList).filter (!showsLabel ·) = [] := by
      rw [List.filter_eq_nil_iff]
      intro line hline
      obtain ⟨text, htext, rfl⟩ := List.mem_map.mp hline
      rw [ListingRow.showsLabel_of_mem_labelLines (h row List.mem_cons_self) htext]
      decide
    rw [List.flatMap_cons, List.map_append, List.filter_append,
      ih fun other hother => h other (List.mem_cons_of_mem _ hother), ListingRow.lines,
      List.map_append, List.filter_append, hlabels]
    simp [ListingRow.showsLabel_text]

/-- Lines with ends are lines between ends, before an empty one. -/
theorem join_map_append_feed (lines : List String) :
    String.join (lines.map (· ++ "\n")) = "\n".intercalate (lines ++ [""]) := by
  induction lines with
  | nil => rfl
  | cons line rest ih =>
    obtain ⟨next, more, hmore⟩ := List.exists_cons_of_ne_nil
      (List.append_ne_nil_of_right_ne_nil rest (List.cons_ne_nil "" []))
    rw [List.map_cons, String.join_cons, ih, List.cons_append, hmore,
      String.intercalate_cons_cons]

namespace Build

/-- The texts in a build keep to their lines and columns: words have no sign, names have no
blanks, and no line ends within an instruction. -/
structure Printable (b : Build) : Prop where
  word : ∀ row ∈ b.rows, 0 ≤ row.word
  source : ∀ row ∈ b.rows, '\n' ∉ row.source.toList
  label : ∀ row ∈ b.rows, ∀ x ∈ row.label, IsName x
  name : ∀ s ∈ b.symbols.indices, IsName s.1

variable {b : Build}

/-- No line ends within the lines of a row. -/
theorem Printable.feed_not_mem_lines (h : b.Printable) {row : ListingRow} (hrow : row ∈ b.rows)
    {line : String} (hline : line ∈ row.lines) : '\n' ∉ line.toList := by
  rcases List.mem_append.mp hline with hline | hline
  · obtain ⟨x, hx, rfl⟩ := ListingRow.exists_of_mem_labelLines hline
    have hname := (h.label row hrow x hx).inline.not_mem.1
    simp [padRight, hname]
  · obtain rfl := List.mem_singleton.mp hline
    simp [ListingRow.text, padLeft, feed_not_mem_decimal, h.source row hrow]

/-- No line ends within a line of a listing. -/
theorem Printable.feed_not_mem_listingLines (h : b.Printable) {line : String}
    (hline : line ∈ b.listingLines) : '\n' ∉ line.toList := by
  have hheading : ∀ line ∈ ["Little Man Assembler Listing", rule 40 '=', "",
      "Addr  Word   Line  Source", rule 40 '-'] ++ ["", "Symbol Table", rule 30 '-'],
      '\n' ∉ line.toList := by
    decide
  simp only [listingLines, List.mem_append, or_assoc] at hline
  rcases hline with hline | hline | hline | hline
  · exact hheading line (List.mem_append_left _ hline)
  · obtain ⟨row, hrow, hline⟩ := List.mem_flatMap.mp hline
    exact h.feed_not_mem_lines hrow hline
  · exact hheading line (List.mem_append_right _ hline)
  · obtain ⟨s, hs, rfl⟩ := List.mem_map.mp hline
    simp [padRight, (h.name s hs).inline.not_mem.1, feed_not_mem_twoDigits]

/-- The parts of a listing behind its heading. -/
theorem Printable.splitOn_listing (h : b.Printable) :
    (b.listing.toList.splitOn '\n').drop 5 =
      (b.rows.flatMap ListingRow.lines).map String.toList ++
        [] :: "Symbol Table".toList :: (rule 30 '-').toList :: b.symbolLines.map String.toList := by
  rw [listing, splitOn_intercalate_lines (by simp [listingLines]) fun _ =>
    h.feed_not_mem_listingLines]
  simp [listingLines]

/-- No line of a row is empty. -/
theorem ne_nil_of_mem_lines {rows : List ListingRow} {line : List Char}
    (h : line ∈ (rows.flatMap ListingRow.lines).map String.toList) : line ≠ [] := by
  obtain ⟨text, htext, rfl⟩ := List.mem_map.mp h
  obtain ⟨row, -, hline⟩ := List.mem_flatMap.mp htext
  rcases List.mem_append.mp hline with hline | hline
  · obtain ⟨x, -, rfl⟩ := ListingRow.exists_of_mem_labelLines hline
    simp
  · obtain rfl := List.mem_singleton.mp hline
    simp [ListingRow.text]

/-- The rows of a build are read back from its listing. -/
theorem readRows?_listing (h : b.Printable) :
    readRows? b.listing = some (b.rows.map fun row => (row.address, row.word)) := by
  rw [readRows?, h.splitOn_listing, takeWhile_append_of_head, filter_showsLabel_lines h.label]
  · exact mapM_map_eq_some fun row hrow => ListingRow.readRow?_text (h.word row hrow)
  · intro line hline
    exact decide_eq_true (ne_nil_of_mem_lines hline)
  · intro line hline
    cases hline
    rfl

/-- The symbols of a build are read back from its listing. -/
theorem readListedSymbols?_listing (h : b.Printable) :
    readListedSymbols? b.listing = some b.symbols.indices := by
  rw [readListedSymbols?, h.splitOn_listing, dropWhile_append_of_head]
  · have hsymbols : ((b.symbolLines.map String.toList).mapM readListedSymbol?) =
        some (b.symbols.indices.map id) := by
      rw [symbolLines, List.map_map]
      exact mapM_map_eq_some fun s hs => readListedSymbol?_line (h.name s hs) s.2
    rw [List.map_id] at hsymbols
    exact hsymbols
  · intro line hline
    exact decide_eq_true (ne_nil_of_mem_lines hline)
  · intro line hline
    cases hline
    rfl

/-- The lines of the symbols in a symbol file. -/
def filedSymbols (b : Build) : List (List Char) :=
  b.symbols.indices.map fun s => (s.1 ++ " " ++ twoDigits s.2).toList

/-- Every line of a symbol file stands within a line. -/
theorem Printable.inline_symbolFileLines (h : b.Printable) {line : String}
    (hline : line ∈ b.symbolFileLines) : Inline line.toList := by
  rcases List.mem_append.mp hline with hline | hline
  · have hheading : (["# Symbol table", "# Generated by lmasm"].all fun text =>
        text.toList.all fun c => c == ' ' || !isBlank c) = true := by
      decide
    intro c hc
    simpa using List.all_eq_true.mp (List.all_eq_true.mp hheading line hline) c hc
  · obtain ⟨s, hs, rfl⟩ := List.mem_map.mp hline
    rw [String.toList_append, String.toList_append]
    refine ((h.name s hs).inline.append ?_).append ?_
    · exact fun c hc => .inl (by simpa using hc)
    · exact fun c hc => .inr (numeric_field (mem_twoDigits hc)).1.1

/-- The parts of a symbol file are its heading, the lines of the symbols, and an empty one. -/
theorem Printable.splitOn_symbolFile (h : b.Printable) :
    b.symbolFile.toList.splitOn '\n' =
      "# Symbol table".toList :: "# Generated by lmasm".toList :: (b.filedSymbols ++ [[]]) := by
  have hlines : ∀ line ∈ b.symbolFileLines ++ [""], '\n' ∉ line.toList := by
    intro line hline
    rcases List.mem_append.mp hline with hline | hline
    · exact (h.inline_symbolFileLines hline).not_mem.1
    · rw [List.mem_singleton.mp hline]
      exact List.not_mem_nil
  rw [symbolFile, join_map_append_feed, splitOn_intercalate_lines (by simp) hlines]
  simp [symbolFileLines, filedSymbols]

/-- The symbols of a build are read back from its symbol file. -/
theorem readSymbolFile?_symbolFile (h : b.Printable) :
    readSymbolFile? b.symbolFile = some b.symbols.indices := by
  have hkept : b.filedSymbols.filter (· ≠ []) = b.filedSymbols := by
    rw [List.filter_eq_self]
    intro line hline
    obtain ⟨s, -, rfl⟩ := List.mem_map.mp hline
    simp
  have hread : b.filedSymbols.mapM readFiledSymbol? = some (b.symbols.indices.map id) :=
    mapM_map_eq_some fun s hs => readFiledSymbol?_line (h.name s hs) s.2
  rw [readSymbolFile?, h.splitOn_symbolFile, List.drop_succ_cons, List.drop_succ_cons,
    List.drop_zero, List.filter_append, hkept]
  simpa using hread

end Build

end Mailroom
