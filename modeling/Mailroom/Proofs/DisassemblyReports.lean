import Mailroom.Command.Disassemble
import Mailroom.Proofs.ExecutionReports
import Mailroom.Proofs.ShownWords

/-!
# Reports of the disassembling command

The disassembling command shows every image, and the words that it shows are read back from
its output, whatever the name of the image is.

Main definitions:

- `lastLines` are the lines behind the last empty line of an output.

Main results:

- Theorem `withoutSequences_disassemblyText`: the text of a disassembly is shown as it is.
- Theorem `DisassembleRequest.lastLines_stdout`: the output ends with the lines of the text.
- Theorem `DisassembleRequest.disassembly_lossless`: the text and the output display the
  words.
-/

namespace Mailroom

open Text

/-! ## The end of an output -/

/-- The lines behind the last empty line of an output, whose last line is ended. -/
def lastLines (output : String) : List (List Char) :=
  (((output.toList.splitOn '\n').reverse.drop 1).takeWhile (· ≠ [])).reverse

/-- Behind an empty line stand the lines of a text, if none of them is empty. -/
theorem lastLines_append {output text : String} (before : List Char)
    (houtput : output.toList = before ++ '\n' :: ([] ++ '\n' :: (text.toList ++ '\n' :: [])))
    (hne : ∀ line ∈ textLines text, line ≠ []) : lastLines output = textLines text := by
  have hparts : (output.toList.splitOn '\n').reverse.drop 1 =
      (text.toList.splitOn '\n').reverse ++ [] :: (before.splitOn '\n').reverse := by
    rw [houtput, List.splitOn_append_cons_self, List.splitOn_append_cons_self,
      List.splitOn_append_cons_self]
    simp
  rw [lastLines, hparts]
  unfold textLines at hne ⊢
  split at hne
  next hempty =>
    rw [hempty, if_pos rfl]
    rfl
  next hsome =>
    rw [if_neg hsome, takeWhile_append_of_head]
    · rw [List.reverse_reverse]
    · intro line hline
      exact decide_eq_true (hne line (List.mem_reverse.mp hline))
    · intro line hline
      cases hline
      rfl

/-! ## Texts without control sequences -/

/-- There is no escape character in a number. -/
theorem escape_not_mem_of_numeric {cs : List Char} (h : ∀ c ∈ cs, c = '-' ∨ c.isDigit = true) :
    escapeCharacter ∉ cs := by
  intro hmem
  exact absurd (h _ hmem) (by decide)

/-- There is no escape character in a mnemonic. -/
theorem escape_not_mem_mnemonic (d : Disassembled) : escapeCharacter ∉ d.mnemonic.toList := by
  have hopcode : ∀ op : Opcode, escapeCharacter ∉ op.mnemonic.toList := fun op hmem =>
    absurd (op.mnemonic_isLower _ hmem) (by decide)
  unfold Disassembled.mnemonic
  split
  next => decide
  next op _ => exact hopcode (.plain op)
  next op _ _ => exact hopcode (.mailbox op)
  next op _ _ _ => exact hopcode (.branch op)

/-- There is no escape character in a made name. -/
theorem escape_not_mem_made (a : Int) : escapeCharacter ∉ ("L" ++ twoDigits a).toList := by
  rw [String.toList_append, List.mem_append, not_or]
  exact ⟨by decide, escape_not_mem_of_numeric fun _ => mem_twoDigits⟩

/-- There is no escape character in an operand. -/
theorem escape_not_mem_operand {d : Disassembled} (hd : d.content = .ofWord .empty d.word) :
    escapeCharacter ∉ d.operand.toList := by
  rw [Disassembled.operand, hd, Content.ofWord]
  cases Order.ofWord? d.word with
  | none => exact escape_not_mem_of_numeric fun _ => mem_decimal
  | some order =>
    cases order with
    | plain op => exact List.not_mem_nil
    | access op a => exact escape_not_mem_of_numeric fun _ => mem_decimal
    | branch op target => exact escape_not_mem_made target.val

/-- There is no escape character in the line of a word. -/
theorem escape_not_mem_text {d : Disassembled} (hd : d.content = .ofWord .empty d.word) :
    escapeCharacter ∉ d.text.toList := by
  have haddress : escapeCharacter ∉ (twoDigits d.address).toList :=
    escape_not_mem_of_numeric fun _ => mem_twoDigits
  have hword : escapeCharacter ∉ (decimal d.word).toList :=
    escape_not_mem_of_numeric fun _ => mem_decimal
  have hstatement : escapeCharacter ∉ d.statement.toList := by
    unfold Disassembled.statement
    split
    · exact escape_not_mem_mnemonic d
    · rw [String.toList_append, String.toList_append, List.mem_append, List.mem_append, not_or,
        not_or]
      exact ⟨⟨escape_not_mem_mnemonic d, by decide⟩, escape_not_mem_operand hd⟩
  have hspace : escapeCharacter ≠ ' ' := by decide
  have hcolon : escapeCharacter ≠ ':' := by decide
  simp [d.toList_text, haddress, hword, hstatement, hspace, hcolon]

/-- The text of a disassembly without symbols is shown as it is. -/
theorem withoutSequences_disassemblyText (words : List Int) (start : Int) (count : Option Int) :
    withoutSequences (disassemblyText .empty words start count) =
      disassemblyText .empty words start count := by
  apply withoutSequences_of_no_escape
  rintro c hc rfl
  rcases exists_of_mem_intercalate hc with hc | ⟨line, hline, hc⟩
  · exact absurd hc (by decide)
  · obtain ⟨d, hd, hline⟩ := List.mem_flatMap.mp hline
    have hlines : line = "." ++ ("L" ++ twoDigits d.address) ∨ line = d.text := by
      unfold linesWithLabel Names.labelFor at hline
      grind [Table.find?_empty]
    rcases hlines with rfl | rfl
    · rw [String.toList_append, List.mem_append] at hc
      rcases hc with hc | hc
      · exact absurd hc (by decide)
      · exact escape_not_mem_made d.address hc
    · exact escape_not_mem_text (content_of_mem_disassemble hd) hc

/-! ## The command -/

namespace DisassembleRequest

variable {r : DisassembleRequest}

/-- The command shows its lines and ends well. -/
theorem says_task (h : r.output = none) :
    r.task.Says (.ok .success) (r.lines (Image.decode r.content)) := by
  have hshow : Task.Says (do
      Task.say (r.lines (Image.decode r.content))
      return ExitStatus.success) (.ok .success) (r.lines (Image.decode r.content)) :=
    .after_say (Task.says_pure ExitStatus.success) _
  rw [task, h]
  exact (says_imageWords r.image r.content).bind hshow

/-- The report of the command has exit code 0, and the files are as they were. -/
theorem report_of_shown (h : r.output = none) (ws : Workspace) :
    (r.task.report ws).exit.code = 0 ∧ (r.task.report ws).workspace = ws ∧
      (r.task.report ws).out = r.lines (Image.decode r.content) := by
  obtain ⟨hexit, hout, hworkspace⟩ := (says_task h).conclude ⟨[], [], ws⟩
  refine ⟨?_, hworkspace, hout⟩
  rw [Task.report, hexit]
  rfl

/-- The request to show the words of an image. -/
def toScreen (image : String) (content : Bytes) (address : Nat) (count : Option Nat)
    (verbose : Bool) : DisassembleRequest :=
  ⟨image, content, none, address, count.map Int.ofNat, verbose⟩

variable (image : String) (content : Bytes) (address : Nat) (count : Option Nat)
  (verbose : Bool) (ws : Workspace)

/-- The output ends with the lines of the text. -/
theorem lastLines_stdout :
    lastLines ((toScreen image content address count verbose).task.report ws).stdout =
      textLines (disassemblyText .empty ((Image.decode content).map (·.val)) address
        (count.map Int.ofNat)) := by
  generalize hr : toScreen image content address count verbose = r
  obtain ⟨-, -, hout⟩ := report_of_shown (r := r) (by rw [← hr]; rfl) ws
  have hlines : r.lines (Image.decode r.content) =
      ["; Disassembly of " ++ baseName image,
        "; Size: " ++ decimal (Image.decode content).length ++ " words", "",
        disassemblyText .empty ((Image.decode content).map (·.val)) address
          (count.map Int.ofNat)] := by
    rw [← hr]
    rfl
  have hempty : withoutSequences "" = "" := rfl
  refine lastLines_append (withoutSequences ("; Disassembly of " ++ baseName image) ++ "\n" ++
    withoutSequences ("; Size: " ++ decimal (Image.decode content).length ++ " words")).toList
      ?_ ?_
  · rw [Report.stdout, hout, hlines]
    simp [hempty, withoutSequences_disassemblyText]
  · exact fun line => ne_nil_of_mem_textLines

/-- The lines of a disassembly without symbols show the first words.  There are no other lines,
and the text is empty when there are no words.  The command shows every image without a failure,
and the words that it shows are read back from its output. -/
theorem disassembly_lossless :
    (∀ words (start : Nat) (count : Option Nat),
      let text := disassemblyText .empty words start (count.map Int.ofNat)
      (text = "" ↔ firstWords words count = []) ∧
        ∃ shown, Displays (textLines text) start (firstWords words count) shown) ∧
    ∀ image content address count verbose ws,
      let report := (toScreen image content address count verbose).task.report ws
      let words := (Image.decode content).map (·.val)
      report.exit.code = 0 ∧ report.workspace = ws ∧
        lastLines report.stdout =
          textLines (disassemblyText .empty words address (count.map Int.ofNat)) ∧
        readWordLines? (lastLines report.stdout) =
          some (((firstWords words count).zipIdx address).map Prod.swap) := by
  refine ⟨fun words start count => ?_, fun image content address count verbose ws => ?_⟩
  · obtain ⟨shown, hshown⟩ := displays_disassemblyText words start count
    exact ⟨textLines_eq_nil_iff.symm.trans hshown.lines_eq_nil_iff, shown, hshown⟩
  · have hlast := lastLines_stdout image content address count verbose ws
    obtain ⟨shown, hshown⟩ :=
      displays_disassemblyText ((Image.decode content).map (·.val)) address count
    obtain ⟨hcode, hworkspace, -⟩ :=
      report_of_shown (r := toScreen image content address count verbose) rfl ws
    exact ⟨hcode, hworkspace, hlast, hlast ▸ hshown.read⟩

/-- A branch to the word before it is shown with a label line before that word, and both words are
read back from the output, but not the byte that is left over. -/
theorem disassembly_lossless_branch :
    let text := disassemblyText .empty [901, 607] 7 none
    let report := (toScreen "a.bin" [0x85, 0x03, 0x5F, 0x02, 0x00] 7 none false).task.report
      ⟨[], [], .empty⟩
    (∃ shown first branch, Displays (textLines text) 7 [901, 607] shown ∧
      shown[0]? = some first ∧ shown[1]? = some branch ∧ BranchesTo 607 7 ∧
      first.label = some ('.' :: operandOf branch.line)) ∧
      report.exit.code = 0 ∧
      readWordLines? (lastLines report.stdout) = some [(7, 901), (8, 607)] := by
  intro text report
  obtain ⟨htext, hreport⟩ := disassembly_lossless
  obtain ⟨-, shown, hshown⟩ := htext [901, 607] 7 none
  obtain ⟨hcode, -, -, hread⟩ :=
    hreport "a.bin" [0x85, 0x03, 0x5F, 0x02, 0x00] 7 none false ⟨[], [], .empty⟩
  have hlength : shown.length = 2 := hshown.length_eq
  have hfirst : shown[0]? = some shown[0] := List.getElem?_eq_getElem (by omega)
  have hbranch : shown[1]? = some shown[1] := List.getElem?_eq_getElem (by omega)
  have hleads : BranchesTo 607 7 := branchesTo_iff.mpr (by decide)
  refine ⟨⟨shown, shown[0], shown[1], hshown, hfirst, hbranch, hleads, ?_⟩, hcode, hread⟩
  exact hshown.label_eq 0 _ hfirst 1 _ 607 hbranch rfl hleads

end DisassembleRequest

end Mailroom
