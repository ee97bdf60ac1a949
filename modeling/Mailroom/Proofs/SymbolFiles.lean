import Mailroom.Proofs.OutputFiles

/-!
# Symbol files

A symbol file has no quotes.  It is read back all the same, since a label has no blanks:
the one space in a line stands between a name and its index.

Main definitions:

- `splitSymbol?` reads a line that a space divides in two.

Main results:

- Theorems `filter_isBlank_line` and `splitSymbol?_line`: the line of a symbol has one blank,
  and the parts on its sides give the symbol.
- Theorem `Build.Printable.carriageReturn_not_mem_symbolFile`: the file is read as it was
  written.
- Theorem `Assembler.symbolFile_lossless` joins them for every program that is assembled.
-/

namespace Mailroom

open Text

/-! ## One line -/

/-- The symbol in a line that one space divides into a name and an index. -/
def splitSymbol? (line : List Char) : Option (String × Nat) :=
  match line.splitOn ' ' with
  | [name, index] => (filledNumber? index).map fun n => (String.ofList name, n)
  | _ => none

variable {x : String}

/-- There are no blanks to find where no character is one. -/
theorem filter_isBlank_of_forall {cs : List Char} (h : ∀ c ∈ cs, isBlank c = false) :
    cs.filter isBlank = [] := by
  rw [List.filter_eq_nil_iff]
  exact fun c hc => Bool.eq_false_iff.mp (h c hc)

/-- The only blank in the line of a symbol is a space. -/
theorem filter_isBlank_line (hx : IsName x) (n : Nat) :
    (x ++ " " ++ twoDigits n).toList.filter isBlank = [' '] := by
  have hname : x.toList.filter isBlank = [] :=
    filter_isBlank_of_forall fun c hc => (hx.field c hc).1
  have hindex : (twoDigits n).toList.filter isBlank = [] :=
    filter_isBlank_of_forall fun c hc => (numeric_field (mem_twoDigits hc)).1.1
  rw [String.toList_append, String.toList_append, List.filter_append, List.filter_append, hname,
    hindex]
  decide

/-- The parts of the line of a symbol at its space give the symbol. -/
theorem splitSymbol?_line (hx : IsName x) (n : Nat) :
    splitSymbol? (x ++ " " ++ twoDigits n).toList = some (x, n) := by
  have hparts : (x ++ " " ++ twoDigits n).toList.splitOn ' ' =
      [x.toList, (twoDigits n).toList] := by
    have hline : (x ++ " " ++ twoDigits n).toList =
        x.toList ++ ' ' :: (twoDigits n).toList := by
      simp
    rw [hline, List.splitOn_append_cons_self, List.splitOn_eq_singleton hx.space_not_mem,
      List.splitOn_eq_singleton (space_not_mem_of_numeric fun _ => mem_twoDigits)]
    rfl
  rw [splitSymbol?, hparts]
  simp only [filledNumber?_twoDigits, Option.map_some, String.ofList_toList]

/-! ## The file -/

namespace Build

variable {b : Build}

/-- No carriage return is in a symbol file. -/
theorem Printable.carriageReturn_not_mem_symbolFile (h : b.Printable) :
    '\r' ∉ b.symbolFile.toList := by
  intro hmem
  rw [symbolFile, join_map_append_feed] at hmem
  rcases exists_of_mem_intercalate hmem with hc | ⟨line, hline, hc⟩
  · exact absurd hc (by decide)
  · rcases List.mem_append.mp hline with hline | hline
    · exact (h.inline_symbolFileLines hline).not_mem.2 hc
    · rw [List.mem_singleton.mp hline] at hc
      exact absurd hc List.not_mem_nil

/-- A symbol file is read as it was written. -/
theorem Printable.readTextFile_symbolFile (h : b.Printable) :
    readTextFile (Utf8.encode b.symbolFile) = .ok b.symbolFile := by
  rw [AssembleRequest.readTextFile_encode,
    AssembleRequest.unifyLineEnds_of_not_mem h.carriageReturn_not_mem_symbolFile,
    String.ofList_toList]

/-- The lines of the symbols have one blank each. -/
theorem Printable.filter_isBlank_filedSymbols (h : b.Printable) {line : List Char}
    (hline : line ∈ b.filedSymbols) : line.filter isBlank = [' '] := by
  obtain ⟨s, hs, rfl⟩ := List.mem_map.mp hline
  exact filter_isBlank_line (h.name s hs) s.2

/-- The symbols are read back from their lines. -/
theorem Printable.mapM_splitSymbol?_filedSymbols (h : b.Printable) :
    b.filedSymbols.mapM splitSymbol? = some b.symbols.indices := by
  have hread : b.filedSymbols.mapM splitSymbol? = some (b.symbols.indices.map id) :=
    mapM_map_eq_some fun s hs => splitSymbol?_line (h.name s hs) s.2
  rw [hread, List.map_id]

end Build

namespace Assembler

variable {a : Assembler} {file source : String} {words : List Int}

/-- The symbol file of a program that is assembled is read as it was written.  It has a
heading of two lines, and then for each symbol a line with one blank, a space, on whose
sides the name and the index stand.  The names increase in code point order. -/
theorem symbolFile_lossless (h : (a.assemble file source).2.outcome = .ok words) :
    let b := (a.assemble file source).1.build
    readTextFile (Utf8.encode b.symbolFile) = .ok b.symbolFile ∧
      ∃ lines,
        b.symbolFile.toList.splitOn '\n' =
          "# Symbol table".toList :: "# Generated by lmasm".toList :: (lines ++ [[]]) ∧
        lines.length = b.symbols.size ∧
        (∀ line ∈ lines, line.filter isBlank = [' ']) ∧
        lines.mapM splitSymbol? = some b.symbols.indices ∧
        b.symbols.indices.Pairwise fun s t => s.1 < t.1 := by
  intro b
  have hprintable : b.Printable := printable_of_assemble h
  refine ⟨hprintable.readTextFile_symbolFile, b.filedSymbols, hprintable.splitOn_symbolFile,
    ?_, ?_, hprintable.mapM_splitSymbol?_filedSymbols, symbols_of_assemble h⟩
  · rw [Build.filedSymbols, SymbolTable.indices, List.length_map, List.length_map, Table.size]
  · exact fun line => hprintable.filter_isBlank_filedSymbols

/-- A text with labels that have a final sigma, an equals sign and a period. -/
def markedLabels : String :=
  ".ΟΔΟΣ\nread\n.=.05\nsub 7\nb οδος"

/-- The symbol file of this text. -/
theorem symbolFile_lossless_markedLabels :
    ((new true).assemble "labels" markedLabels).2.outcome = .ok [901, 207, 600] ∧
      let b := ((new true).assemble "labels" markedLabels).1.build
      readTextFile (Utf8.encode b.symbolFile) = .ok b.symbolFile ∧
        ∃ lines,
          b.symbolFile.toList.splitOn '\n' =
            "# Symbol table".toList :: "# Generated by lmasm".toList :: (lines ++ [[]]) ∧
          lines.length = b.symbols.size ∧
          (∀ line ∈ lines, line.filter isBlank = [' ']) ∧
          lines.mapM splitSymbol? = some b.symbols.indices ∧
          b.symbols.indices.Pairwise fun s t => s.1 < t.1 := by
  have houtcome : ((new true).assemble "labels" markedLabels).2.outcome =
      .ok [901, 207, 600] := by
    decide +kernel
  exact ⟨houtcome, symbolFile_lossless houtcome⟩

end Assembler

end Mailroom
