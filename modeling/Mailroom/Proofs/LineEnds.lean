import Mailroom.Proofs.Continuation
import Mailroom.Proofs.OutputFiles
import Mailroom.Proofs.Paths

/-!
# Line ends in files

Line ends are treated twice.  A file is read with line feeds as its only line ends, and the
text that comes of it is then divided at line feeds, where carriage returns at the end of a line
are dropped.  A text that does not come from a file is only divided.  Both ways lead to the same
lines as long as no carriage return stands without a line feed after it, and no longer: a carriage
return that stands alone ends a line in a file, but not in a text.

Main definitions:

- `ReturnsPaired` says that every carriage return has a line feed directly after it.
- `withoutPairs` is a text with its pairs of line ends replaced by line feeds.

Main results:

- Theorem `linesOf_withoutPairs`: the lines of a text do not depend on its pairs of line ends.
- Theorem `linesOf_unified_iff`: a text has the lines of a file with that text if and only if every
  carriage return has a line feed directly after it.
- Theorem `Assembler.assembleFile_encode`: such a text and its file are assembled alike.
-/

namespace Mailroom

open Text

/-! ## Pairs of line ends -/

/-- Every carriage return has a line feed directly after it. -/
def ReturnsPaired (cs : List Char) : Prop :=
  ∀ before after, cs = before ++ '\r' :: after → ∃ rest, after = '\n' :: rest

/-- Replace every carriage return and line feed by a line feed. -/
def joinPairs : List Char → List Char
  | '\r' :: '\n' :: rest => '\n' :: joinPairs rest
  | c :: rest => c :: joinPairs rest
  | [] => []

/-- A text with its pairs of line ends replaced by line feeds. -/
def withoutPairs (text : String) : String :=
  String.ofList (joinPairs text.toList)

/-- Without its first character, a text still has its carriage returns in pairs. -/
theorem ReturnsPaired.tail {c : Char} {cs : List Char} (h : ReturnsPaired (c :: cs)) :
    ReturnsPaired cs :=
  fun before after hcs => h (c :: before) after (by rw [hcs, List.cons_append])

/-- A character that is no carriage return does not break up pairs. -/
theorem ReturnsPaired.cons {c : Char} {cs : List Char} (hc : c ≠ '\r') (h : ReturnsPaired cs) :
    ReturnsPaired (c :: cs) := by
  intro before after hcs
  cases before with
  | nil => exact absurd (List.cons.inj hcs).1 hc
  | cons d before => exact h before after (List.cons.inj hcs).2

/-- A pair of line ends may come before a text. -/
theorem ReturnsPaired.pair {cs : List Char} (h : ReturnsPaired cs) :
    ReturnsPaired ('\r' :: '\n' :: cs) := by
  intro before after hcs
  cases before with
  | nil => exact ⟨cs, (List.cons.inj hcs).2.symm⟩
  | cons d before => exact h.cons (by decide) before after (List.cons.inj hcs).2

/-- Where carriage returns come in pairs only, unifying line ends is joining pairs. -/
theorem unifyLineEnds_eq_joinPairs {cs : List Char} (h : ReturnsPaired cs) :
    unifyLineEnds cs = joinPairs cs := by
  fun_induction unifyLineEnds cs with
  | case1 rest ih => rw [joinPairs, ih h.tail.tail]
  | case2 rest halone ih =>
    obtain ⟨later, rfl⟩ := h [] rest rfl
    exact absurd rfl (halone later)
  | case3 c rest hpair hreturn ih =>
    rw [joinPairs.eq_2 c rest hpair, ih h.tail]
  | case4 => rfl

/-! ## Lines -/

/-- Cutting a class off the end of a text either cuts off the whole text, or leaves its first
character. -/
theorem dropTrailing_cons (p : Char → Bool) (c : Char) (cs : List Char) :
    dropTrailing p (c :: cs) =
      if dropTrailing p cs = [] ∧ p c then [] else c :: dropTrailing p cs := by
  simp only [dropTrailing, List.reverse_cons, List.dropWhile_append, List.reverse_eq_nil_iff]
  by_cases hnil : cs.reverse.dropWhile p = []
  · by_cases hc : p c = true <;> simp [hnil, hc]
  · simp [hnil]

/-- The lines of a text are found from its parts without the carriage returns at their ends. -/
theorem linesFrom_congr {first second : List (List Char)}
    (h : first.map (dropTrailing (· = '\r')) = second.map (dropTrailing (· = '\r')))
    (file : String) (number : Int) :
    linesFrom file number first = linesFrom file number second := by
  induction first generalizing second number with
  | nil =>
    cases second with
    | nil => rfl
    | cons raw rest => contradiction
  | cons raw rest ih =>
    cases second with
    | nil => contradiction
    | cons raw' rest' =>
      obtain ⟨hraw, hrest⟩ := List.cons.inj h
      rw [linesFrom, linesFrom, hraw, ih hrest]

/-- Texts whose parts differ in the carriage returns at their ends only still do so after the same
character. -/
theorem map_dropTrailing_splitOn_cons {c : Char} {first second : List Char}
    (h : (first.splitOn '\n').map (dropTrailing (· = '\r')) =
      (second.splitOn '\n').map (dropTrailing (· = '\r'))) :
    ((c :: first).splitOn '\n').map (dropTrailing (· = '\r')) =
      ((c :: second).splitOn '\n').map (dropTrailing (· = '\r')) := by
  rw [List.splitOn_cons_eq_if_modifyHead, List.splitOn_cons_eq_if_modifyHead]
  by_cases hc : (c == '\n') = true
  · rw [if_pos hc, if_pos hc, List.map_cons, List.map_cons, h]
  · rw [if_neg hc, if_neg hc]
    obtain ⟨part, parts, hfirst⟩ := List.exists_cons_of_ne_nil (List.splitOn_ne_nil '\n' first)
    obtain ⟨part', parts', hsecond⟩ := List.exists_cons_of_ne_nil (List.splitOn_ne_nil '\n' second)
    rw [hfirst, hsecond] at h ⊢
    obtain ⟨hpart, hparts⟩ := List.cons.inj h
    simp only [List.modifyHead_cons, List.map_cons, dropTrailing_cons, hpart, hparts]

/-- Joining pairs changes the parts of a text in the carriage returns at their ends only. -/
theorem map_dropTrailing_splitOn_joinPairs (cs : List Char) :
    ((joinPairs cs).splitOn '\n').map (dropTrailing (· = '\r')) =
      (cs.splitOn '\n').map (dropTrailing (· = '\r')) := by
  fun_induction joinPairs cs with
  | case1 rest ih =>
    -- the part that the pair ends is empty up to its carriage return
    have hpair : ('\r' :: '\n' :: rest).splitOn '\n' = ['\r'] :: rest.splitOn '\n' :=
      List.splitOn_append_cons_self ['\r'] rest
    have hfeed : ('\n' :: joinPairs rest).splitOn '\n' = [] :: (joinPairs rest).splitOn '\n' :=
      List.splitOn_append_cons_self [] (joinPairs rest)
    rw [hpair, hfeed, List.map_cons, List.map_cons, ih]
    rfl
  | case2 c rest _ ih => exact map_dropTrailing_splitOn_cons ih
  | case3 => rfl

/-- The lines of a text do not depend on its pairs of line ends. -/
theorem linesOf_withoutPairs (file : String) (first : Int) (text : String) :
    linesOf file first (withoutPairs text) = linesOf file first text := by
  rw [linesOf_eq_linesFrom, linesOf_eq_linesFrom, withoutPairs, String.toList_ofList]
  exact linesFrom_congr (map_dropTrailing_splitOn_joinPairs text.toList) file first

/-- A text is read alike without its pairs of line ends. -/
theorem Reading.ofSource_withoutPairs (file : String) (first : Int) (text : String) :
    ofSource file first (withoutPairs text) = ofSource file first text := by
  rw [ofSource, linesOf_withoutPairs, ofSource]

/-- A text is assembled alike without its pairs of line ends. -/
theorem Assembler.assemble_withoutPairs (a : Assembler) (file text : String) :
    a.assemble file (withoutPairs text) = a.assemble file text := by
  rw [assemble, Reading.ofSource_withoutPairs, assemble]

/-! ## Carriage returns that stand alone -/

/-- Unifying line ends takes no line feed away. -/
theorem count_le_count_unifyLineEnds (cs : List Char) :
    cs.count '\n' ≤ (unifyLineEnds cs).count '\n' := by
  fun_induction unifyLineEnds cs with
  | case1 rest ih =>
    rw [List.count_cons_of_ne (by decide), List.count_cons_self, List.count_cons_self]
    omega
  | case2 rest _ ih =>
    rw [List.count_cons_of_ne (by decide), List.count_cons_self]
    omega
  | case3 c rest _ _ ih =>
    rw [List.count_cons, List.count_cons]
    omega
  | case4 => exact le_rfl

/-- If unifying line ends adds no line feed, every carriage return has one directly after it. -/
theorem returnsPaired_of_count_eq {cs : List Char}
    (h : (unifyLineEnds cs).count '\n' = cs.count '\n') : ReturnsPaired cs := by
  fun_induction unifyLineEnds cs with
  | case1 rest ih =>
    rw [List.count_cons_self, List.count_cons_of_ne (by decide), List.count_cons_self] at h
    exact (ih (by omega)).pair
  | case2 rest _ ih =>
    -- a line feed is put in the place of a carriage return that stands alone
    rw [List.count_cons_self, List.count_cons_of_ne (by decide)] at h
    have hleast := count_le_count_unifyLineEnds rest
    omega
  | case3 c rest _ hreturn ih =>
    rw [List.count_cons, List.count_cons] at h
    exact (ih (by omega)).cons fun hc => hreturn hc
  | case4 => exact fun before after h => by cases before <;> contradiction

/-- Joining pairs leaves the line feeds. -/
theorem count_joinPairs (cs : List Char) : (joinPairs cs).count '\n' = cs.count '\n' := by
  have hparts := congrArg List.length (map_dropTrailing_splitOn_joinPairs cs)
  rw [List.length_map, List.length_map, length_splitOn, length_splitOn] at hparts
  omega

/-- Unifying line ends adds no line feed if and only if every carriage return has one directly
after it. -/
theorem returnsPaired_iff {cs : List Char} :
    ReturnsPaired cs ↔ (unifyLineEnds cs).count '\n' = cs.count '\n' := by
  constructor
  · intro h
    rw [unifyLineEnds_eq_joinPairs h, count_joinPairs]
  · exact returnsPaired_of_count_eq

instance : DecidablePred ReturnsPaired :=
  fun _ => decidable_of_iff _ returnsPaired_iff.symm

/-- A line has one number. -/
theorem length_linesOf (file : String) (first : Int) (source : String) :
    (linesOf file first source).length = source.toList.count '\n' + 1 := by
  rw [linesOf, List.length_map, List.length_zipIdx, length_splitOn]

/-- A text has the lines of a file with that text if and only if every carriage return has a line
feed directly after it. -/
theorem linesOf_unified_iff (file : String) (first : Int) (text : String) :
    linesOf file first (String.ofList (unifyLineEnds text.toList)) = linesOf file first text ↔
      ReturnsPaired text.toList := by
  constructor
  · intro h
    have hlength := congrArg List.length h
    rw [length_linesOf, length_linesOf, String.toList_ofList] at hlength
    exact returnsPaired_of_count_eq (by omega)
  · intro h
    rw [unifyLineEnds_eq_joinPairs h]
    exact linesOf_withoutPairs file first text

/-- A carriage return that stands alone ends a line in a file only. -/
example : ¬ ReturnsPaired "read\rread".toList := by decide +kernel

/-! ## Files -/

/-- A file that holds a text with its carriage returns in pairs is read as the text without the
pairs. -/
theorem readTextFile_encode_of_paired {text : String} (h : ReturnsPaired text.toList) :
    readTextFile (Utf8.encode text) = .ok (withoutPairs text) := by
  rw [AssembleRequest.readTextFile_encode, unifyLineEnds_eq_joinPairs h, withoutPairs]

namespace Assembler

/-- The path of a file matters in its shown form only. -/
theorem assembleFile_shownPath (a : Assembler) (path : String) (bytes : Bytes) :
    a.assembleFile (shownPath path) bytes = a.assembleFile path bytes := by
  rw [assembleFile, shownPath_shownPath, assembleFile]

/-- A text in which every carriage return has a line feed directly after it is assembled like the
file that holds it, if it has the shown form of the path for its name: the words, the symbols, the
refusals and the warnings are the same, and the only notice that the file has before the others is
that of its path.  The shown form is a path to the file as well.  The text is also assembled like
the text with line feeds in the place of its pairs of line ends, under every name. -/
theorem assembleFile_encode (a : Assembler) (path text : String) (h : ReturnsPaired text.toList) :
    let fromFile := a.assembleFile path (Utf8.encode text)
    let fromText := a.assemble (shownPath path) text
    fromFile.1 = fromText.1 ∧
      fromFile.2.outcome = fromText.2.outcome.mapError .refused ∧
      fromFile.2.notices = .assembling (shownPath path) :: fromText.2.notices ∧
      warnings fromFile.2.notices = warnings fromText.2.notices ∧
      a.assembleFile (shownPath path) (Utf8.encode text) = fromFile ∧
      ∀ file, a.assemble file (withoutPairs text) = a.assemble file text := by
  intro fromFile fromText
  have hfile : fromFile = (fromText.1, ⟨.assembling (shownPath path) :: fromText.2.notices,
      fromText.2.outcome.mapError .refused⟩) := by
    have hread := assembleFile_of_text (readTextFile_encode_of_paired h) a path
    rwa [a.assemble_withoutPairs] at hread
  have hshown := a.assembleFile_shownPath path (Utf8.encode text)
  rw [hfile]
  exact ⟨rfl, rfl, rfl, rfl, hshown.trans hfile, fun file => a.assemble_withoutPairs file text⟩

end Assembler

/-- A program with a label twice, and with a pair of characters at the end of each line. -/
def pairedText : String :=
  ".A\r\nread\r\n.a\r\n b a ; again\r\n"

/-- The file of the program is assembled with a warning for the second label, which names the file
by the shown form of its path. -/
theorem Assembler.assembleFile_encode_pairedText :
    ReturnsPaired pairedText.toList ∧
      let assembly := (new false).assembleFile ".//loop" (Utf8.encode pairedText)
      assembly.2.outcome = .ok [901, 601] ∧
        .labelRedefined ⟨"loop", 3, 1⟩ "a" ⟨"loop", 1, 1⟩ ∈ warnings assembly.2.notices := by
  have hpaired : ReturnsPaired pairedText.toList := by decide +kernel
  obtain ⟨-, houtcome, -, hwarnings, -, -⟩ :=
    assembleFile_encode (new false) ".//loop" pairedText hpaired
  refine ⟨hpaired, ?_, ?_⟩
  · rw [houtcome]
    decide +kernel
  · rw [hwarnings]
    decide +kernel

end Mailroom
