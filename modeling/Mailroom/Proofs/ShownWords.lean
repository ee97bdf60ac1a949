import Mailroom.Proofs.BareImages

/-!
# Words in the text of a disassembly

Without symbols a disassembly has one line for each word, and label lines before the targets
of the branches that it shows.  The words are read back from the lines, whatever their size.

Main definitions:

- `textLines` are the lines of a text, and `isLabelLine` says which of them show labels.
- `readWordLine?` reads the address and the word in a line, and `operandOf` its operand.
- `Displays` says which lines show a list of words.

Main results:

- Theorem `readWordLine?_text`: a word and its address are read back from its line.
- Theorem `operandOf_text`: the operand of a branch is the made name of its target.
- Theorem `displays_disassemblyText`: the text of a disassembly displays the words.
-/

namespace Mailroom

open Text

/-! ## Reading lines -/

/-- The lines of a text.  The empty text has none. -/
def textLines (text : String) : List (List Char) :=
  if text = "" then [] else text.toList.splitOn '\n'

/-- A line that begins with a period shows a label. -/
def isLabelLine (line : List Char) : Bool :=
  line.head? == some '.'

/-- The number before the colon in a line, and the number in the first column after it. -/
def readWordLine? (line : List Char) : Option (Nat × Int) := do
  let address ← filledNumber? (line.takeWhile (· ≠ ':'))
  let column ← (columnsOf ((line.dropWhile (· ≠ ':')).drop 1)).head?
  let word ← signedNumber? column
  return (address, word)

/-- The addresses and words in lines, without those that show labels. -/
def readWordLines? (lines : List (List Char)) : Option (List (Nat × Int)) :=
  (lines.filter (!isLabelLine ·)).mapM readWordLine?

/-- What stands behind the mnemonic in the line of a word. -/
def operandOf (line : List Char) : List Char :=
  ((withoutColumns line).dropWhile (· ≠ ' ')).drop 1

/-- The first words of a list, or all of them. -/
def firstWords (words : List Int) : Option Nat → List Int
  | none => words
  | some n => words.take n

/-! ## Lines that show words -/

/-- The line of a word, with the label line directly before it, if there is one. -/
structure ShownWord where
  label : Option (List Char)
  line : List Char
  deriving DecidableEq, Repr

/-- The lines of a word with its label. -/
def ShownWord.lines (s : ShownWord) : List (List Char) :=
  s.label.toList ++ [s.line]

/-- The lines show words from an address on.  There is one line for each word, from which the
word is read back with its address.  A label line is before the line of a word if one of the
words is a branch to its address, and it shows the operand of that branch. -/
structure Displays (lines : List (List Char)) (start : Nat) (words : List Int)
    (shown : List ShownWord) : Prop where
  lines_eq : lines = shown.flatMap ShownWord.lines
  length_eq : shown.length = words.length
  wordLines_eq : lines.filter (!isLabelLine ·) = shown.map ShownWord.line
  read : readWordLines? lines = some ((words.zipIdx start).map Prod.swap)
  labelled_iff : ∀ (i : Nat) s, shown[i]? = some s →
    (s.label.isSome = true ↔ ∃ word ∈ words, BranchesTo word (start + i))
  label_eq : ∀ (i : Nat) s, shown[i]? = some s → ∀ (j : Nat) branch word,
    shown[j]? = some branch → words[j]? = some word → BranchesTo word (start + i) →
      s.label = some ('.' :: operandOf branch.line)

/-! ## One word -/

/-- A word and its address are read back from its line. -/
theorem readWordLine?_text (names : Names) (word : Int) (address : Nat) :
    readWordLine? (disassembleWord names word address).text.toList = some (address, word) := by
  generalize hd : disassembleWord names word address = d
  have haddress : d.address = address := by rw [← hd]; rfl
  have hword : d.word = word := by rw [← hd]; rfl
  have hdigits : ∀ c ∈ (twoDigits d.address).toList, decide (c ≠ ':') = true := fun c hc =>
    decide_eq_true (numeric_field (mem_twoDigits hc)).2.2.1
  have hspaces : ' ' :: (List.replicate (5 - (decimal d.word).toList.length) ' ' ++
      ((decimal d.word).toList ++ ' ' :: ' ' :: d.statement.toList)) =
        List.replicate (5 - (decimal d.word).toList.length + 1) ' ' ++
          ((decimal d.word).toList ++ ' ' :: ' ' :: d.statement.toList) := rfl
  have hcolumns : columnsOf (((d.text.toList).dropWhile (· ≠ ':')).drop 1) =
      (decimal d.word).toList :: columnsOf (' ' :: d.statement.toList) := by
    rw [d.toList_text, dropWhile_append_of_head hdigits (by simp), List.drop_succ_cons,
      List.drop_zero, hspaces, columnsOf_spaces_append, columnsOf_column_append
        (decimal_ne_nil _) (space_not_mem_of_numeric fun _ => mem_decimal)]
  have hfirst : d.text.toList.takeWhile (· ≠ ':') = (twoDigits d.address).toList := by
    rw [d.toList_text, takeWhile_append_of_head hdigits (by simp)]
  rw [readWordLine?, hcolumns, hfirst, haddress, filledNumber?_twoDigits, hword]
  simp [signedNumber?_decimal]

/-- The line of a word shows no label. -/
theorem isLabelLine_text (d : Disassembled) : isLabelLine d.text.toList = false := by
  cases hline : d.text.toList with
  | nil => rfl
  | cons c rest =>
    have hc : c ≠ '.' := fun hc => d.text_ne_period rest (hline.trans (hc ▸ rfl))
    simpa [isLabelLine] using hc

/-- The operand of a branch without a known target is the made name of the target. -/
theorem operandOf_text {word : Int} {n : Nat} (h : BranchesTo word n) (address : Int) :
    operandOf (disassembleWord .empty word address).text.toList = ("L" ++ twoDigits n).toList := by
  obtain ⟨op, target, hread, rfl⟩ := h
  have hstatement : (disassembleWord .empty word address).statement =
      op.mnemonic ++ " " ++ ("L" ++ twoDigits target.val) := by
    simp [disassembleWord, Content.ofWord, hread, Disassembled.statement, Disassembled.operand,
      Disassembled.mnemonic, Names.labelFor]
  have hmnemonic : ∀ c ∈ op.mnemonic.toList, decide (c ≠ ' ') = true := by
    intro c hc
    refine decide_eq_true ?_
    rintro rfl
    exact absurd ((Opcode.branch op).mnemonic_isLower _ hc) (by decide)
  have hlist : (op.mnemonic ++ " " ++ ("L" ++ twoDigits target.val)).toList =
      op.mnemonic.toList ++ ' ' :: ("L" ++ twoDigits target.val).toList := by
    simp
  rw [operandOf, Disassembled.withoutColumns_text, hstatement, hlist,
    dropWhile_append_of_head hmnemonic (by simp), List.drop_succ_cons, List.drop_zero]

/-! ## All words -/

/-- Words before a position are the first words. -/
theorem disassemble_firstWords (names : Names) (words : List Int) (start : Int)
    (count : Option Nat) :
    disassemble names words start (count.map Int.ofNat) =
      disassembleFrom names start (firstWords words count) := by
  cases count with
  | none => rfl
  | some n => exact congrArg (disassembleFrom names start) (slice_zero words n)

/-- Every word is taken apart at its address. -/
theorem disassembleFrom_eq_map (names : Names) (start : Nat) (words : List Int) :
    disassembleFrom names start words =
      (words.zipIdx start).map fun p => disassembleWord names p.1 p.2 := by
  induction words generalizing start with
  | nil => rfl
  | cons word rest ih =>
    rw [List.zipIdx_cons, List.map_cons, ← ih (start + 1)]
    rfl

/-- The lines between line ends, of which none is empty, are the lines of the text. -/
theorem textLines_intercalate {lines : List String} (hne : ∀ line ∈ lines, line ≠ "")
    (hfeed : ∀ line ∈ lines, '\n' ∉ line.toList) :
    textLines ("\n".intercalate lines) = lines.map String.toList := by
  unfold textLines
  cases lines with
  | nil => rfl
  | cons line rest =>
    have hsplit := splitOn_intercalate_lines (List.cons_ne_nil line rest) hfeed
    rw [if_neg, hsplit]
    intro hempty
    rw [hempty] at hsplit
    exact hne line List.mem_cons_self (String.toList_inj.mp (List.cons.inj hsplit).1.symm)

/-- A word with its label line, if there is one. -/
def ShownWord.of (targets : List Int) (d : Disassembled) : ShownWord :=
  ⟨if targets.contains d.address then some ('.' :: (Names.labelFor .empty d.address).toList)
    else none, d.text.toList⟩

/-- Without symbols the targets of branches have label lines. -/
theorem lines_of (targets : List Int) (d : Disassembled) :
    (linesWithLabel .empty targets d).map String.toList = (ShownWord.of targets d).lines := by
  unfold linesWithLabel ShownWord.of ShownWord.lines
  rw [Table.find?_empty, Option.isSome_none, Bool.or_false]
  split <;> simp

/-- Without label lines there is the line of the word. -/
theorem filter_lines_of (targets : List Int) (d : Disassembled) :
    (ShownWord.of targets d).lines.filter (!isLabelLine ·) = [d.text.toList] := by
  have hlabel : ∀ name, isLabelLine ('.' :: name) = true := fun _ => rfl
  unfold ShownWord.of ShownWord.lines
  split <;> simp [isLabelLine_text, hlabel]

/-- No line of a word is empty. -/
theorem ne_nil_of_mem_lines_of {targets : List Int} {d : Disassembled} {line : List Char}
    (h : line ∈ (ShownWord.of targets d).lines) : line ≠ [] := by
  have htext : d.text.toList ≠ [] := by simp [d.toList_text]
  unfold ShownWord.of ShownWord.lines at h
  grind

/-- The words of a disassembly without symbols. -/
def shownWords (start : Nat) (words : List Int) : List ShownWord :=
  let shown := disassembleFrom .empty start words
  shown.map (.of (branchTargets shown))

/-- The lines of a disassembly are those of its words. -/
theorem textLines_disassemblyText (words : List Int) (start : Nat) (count : Option Nat) :
    textLines (disassemblyText .empty words start (count.map Int.ofNat)) =
      (shownWords start (firstWords words count)).flatMap ShownWord.lines := by
  have hproper : Names.Proper .empty := fun a x hx => absurd hx (by simp)
  have hlines : ∀ line ∈ disassemblyLines .empty words start (count.map Int.ofNat),
      line ≠ "" ∧ '\n' ∉ line.toList := by
    intro line hline
    obtain ⟨d, hd, hline⟩ := List.mem_flatMap.mp hline
    refine ⟨?_, (inline_lines hproper (content_of_mem_disassemble hd) (.inl hline)).not_mem.1⟩
    rintro rfl
    have hempty := List.mem_map_of_mem (f := String.toList) hline
    rw [lines_of] at hempty
    exact ne_nil_of_mem_lines_of hempty rfl
  rw [disassemblyText, textLines_intercalate (fun line h => (hlines line h).1) fun line h =>
    (hlines line h).2, disassemblyLines, disassemble_firstWords, shownWords, List.map_flatMap,
    List.flatMap_map]
  simp only [lines_of]

/-- No line of a disassembly is empty. -/
theorem ne_nil_of_mem_textLines {words : List Int} {start : Nat} {count : Option Nat}
    {line : List Char}
    (h : line ∈ textLines (disassemblyText .empty words start (count.map Int.ofNat))) :
    line ≠ [] := by
  rw [textLines_disassemblyText, shownWords, List.flatMap_map] at h
  obtain ⟨d, -, hline⟩ := List.mem_flatMap.mp h
  exact ne_nil_of_mem_lines_of hline

variable {start : Nat} {words : List Int}

/-- Without label lines there is one line for each word. -/
theorem filter_lines_shownWords (start : Nat) (words : List Int) :
    ((shownWords start words).flatMap ShownWord.lines).filter (!isLabelLine ·) =
      (shownWords start words).map ShownWord.line := by
  rw [shownWords, List.flatMap_map, List.filter_flatMap, List.map_map, List.map_eq_flatMap]
  simp only [filter_lines_of]
  rfl

/-- The words with their addresses are read back from the lines. -/
theorem readWordLines?_shownWords (start : Nat) (words : List Int) :
    readWordLines? ((shownWords start words).flatMap ShownWord.lines) =
      some ((words.zipIdx start).map Prod.swap) := by
  have hlines : (shownWords start words).map ShownWord.line =
      (words.zipIdx start).map fun p => (disassembleWord .empty p.1 p.2).text.toList := by
    rw [shownWords, List.map_map, disassembleFrom_eq_map, List.map_map]
    rfl
  rw [readWordLines?, filter_lines_shownWords, hlines]
  exact mapM_map_eq_some fun p _ => readWordLine?_text .empty p.1 p.2

/-- The word at a place in the list is shown at its address. -/
theorem getElem?_shownWords (start : Nat) (words : List Int) (i : Nat) :
    (shownWords start words)[i]? = words[i]?.map fun word =>
      .of (branchTargets (disassembleFrom .empty start words))
        (disassembleWord .empty word (start + i)) := by
  rw [shownWords, List.getElem?_map, getElem?_disassembleFrom, Option.map_map]
  rfl

/-- A label line is before the words that branches lead to, and it shows the made name. -/
theorem label_shownWords {i : Nat} {s : ShownWord} (hs : (shownWords start words)[i]? = some s) :
    ((∃ word ∈ words, BranchesTo word (start + i)) →
        s.label = some ('.' :: ("L" ++ twoDigits (start + i : Nat)).toList)) ∧
      (s.label.isSome = true → ∃ word ∈ words, BranchesTo word (start + i)) := by
  rw [getElem?_shownWords] at hs
  obtain ⟨word, -, rfl⟩ := Option.map_eq_some_iff.mp hs
  have htarget : (branchTargets (disassembleFrom .empty start words)).contains
      ((start : Int) + i) = true ↔ ∃ word ∈ words, BranchesTo word (start + i) := by
    simp only [List.contains_iff_mem, mem_branchTargets_iff, BranchesTo, ← Int.natCast_add,
      Int.natCast_inj]
  refine ⟨fun hbranch => if_pos (htarget.mpr hbranch), fun hsome => ?_⟩
  by_contra hnone
  have hlabel : ShownWord.label (.of (branchTargets (disassembleFrom .empty start words))
      (disassembleWord .empty word (start + i))) = none := if_neg (mt htarget.mp hnone)
  rw [hlabel] at hsome
  contradiction

/-- The lines of words with label lines display these words. -/
theorem displays_shownWords (start : Nat) (words : List Int) :
    Displays ((shownWords start words).flatMap ShownWord.lines) start words
      (shownWords start words) where
  lines_eq := rfl
  length_eq := by rw [shownWords, List.length_map, disassembleFrom_eq_map, List.length_map,
    List.length_zipIdx]
  wordLines_eq := filter_lines_shownWords start words
  read := readWordLines?_shownWords start words
  labelled_iff i s hs := by
    obtain ⟨hlabel, hbranch⟩ := label_shownWords hs
    refine ⟨hbranch, fun h => ?_⟩
    rw [hlabel h, Option.isSome_some]
  label_eq i s hs j branch word hline hword hleads := by
    rw [getElem?_shownWords, hword, Option.map_some] at hline
    obtain rfl := Option.some.inj hline
    rw [(label_shownWords hs).1 ⟨word, List.mem_of_getElem? hword, hleads⟩]
    exact congrArg (some <| '.' :: ·) (operandOf_text hleads _).symm

/-- The text of a disassembly without symbols displays the first words. -/
theorem displays_disassemblyText (words : List Int) (start : Nat) (count : Option Nat) :
    ∃ shown, Displays (textLines (disassemblyText .empty words start (count.map Int.ofNat))) start
      (firstWords words count) shown := by
  rw [textLines_disassemblyText]
  exact ⟨_, displays_shownWords start (firstWords words count)⟩

example : (textLines (disassemblyText .empty [901, 607, -12345] 7 none)).map String.ofList =
    [".L07", "07:   901  read", "08:   607  b L07", "09: -12345  DAT -12345"] := by
  decide +kernel

/-- There are no lines exactly when there are no words. -/
theorem Displays.lines_eq_nil_iff {lines : List (List Char)} {shown : List ShownWord}
    (h : Displays lines start words shown) : lines = [] ↔ words = [] := by
  rw [← List.length_eq_zero_iff (l := words), ← h.length_eq, List.length_eq_zero_iff]
  constructor
  · intro hlines
    have hnone := h.wordLines_eq
    rw [hlines, List.filter_nil] at hnone
    exact List.map_eq_nil_iff.mp hnone.symm
  · rintro rfl
    exact h.lines_eq

/-- Only the empty text has no lines. -/
theorem textLines_eq_nil_iff {text : String} : textLines text = [] ↔ text = "" := by
  unfold textLines
  split
  next h => simp [h]
  next h => simp [h, List.splitOn_ne_nil]

end Mailroom
