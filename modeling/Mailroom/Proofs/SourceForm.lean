import Mailroom.Disassembly
import Mailroom.Proofs.TextGrammar

/-!
# Disassemblies as source texts

A line of a disassembly shows the address and the number of a word before its statement.
Without these columns the lines are a source text.

Main definitions:

- `withoutColumns` cuts the columns off a line, and `sourceForm` off all lines of a text.
- `sourceLines` lists what is left of the lines of one word.
- `IsName` and `Names.Proper` say that names can stand in a field of a source line.

Main results:

- Theorem `withoutColumns_text`: the statement is what is left of the line of a word.
- Theorem `sourceForm_disassemblyText`: the source form of a disassembly has the label
  lines and the statements of its words.
-/

namespace Mailroom

open Text

/-! ## Cutting columns off -/

/-- A line of a disassembly without its columns: the address up to the colon, and the
number of the word between spaces.  A label line has no columns. -/
def withoutColumns (line : List Char) : List Char :=
  match line with
  | '.' :: _ => line
  | _ => ((((line.dropWhile (· ≠ ':')).drop 2).dropWhile (· = ' ')).dropWhile (· ≠ ' ')).drop 2

/-- A disassembly as a source text: every line without its columns. -/
def sourceForm (text : String) : String :=
  String.ofList (['\n'].intercalate ((text.toList.splitOn '\n').map withoutColumns))

/-- A text within a line, whose only blanks are spaces. -/
def Inline (cs : List Char) : Prop :=
  ∀ c ∈ cs, c = ' ' ∨ isBlank c = false

/-- Texts within a line one after the other. -/
theorem Inline.append {first second : List Char} (hfirst : Inline first)
    (hsecond : Inline second) : Inline (first ++ second) := by
  intro c hc
  rcases List.mem_append.mp hc with hc | hc
  · exact hfirst c hc
  · exact hsecond c hc

/-- No line ends within a line. -/
theorem Inline.not_mem {cs : List Char} (h : Inline cs) : '\n' ∉ cs ∧ '\r' ∉ cs := by
  constructor
  · intro hmem
    exact absurd (h _ hmem) (by decide)
  · intro hmem
    exact absurd (h _ hmem) (by decide)

/-! ## Numbers -/

/-- A natural number is written in decimal digits. -/
theorem toList_decimal (n : Nat) : (decimal n).toList = Nat.toDigits 10 n := by
  rw [← String.toList_ofList (l := Nat.toDigits 10 n), ← Nat.repr_eq_ofList_toDigits]
  rfl

/-- A negative number is written with a minus sign. -/
theorem toList_decimal_negSucc (n : Nat) :
    (decimal (.negSucc n)).toList = '-' :: Nat.toDigits 10 (n + 1) := by
  simp [decimal, Nat.repr_eq_ofList_toDigits]

/-- A number is written in digits, and with a minus sign. -/
theorem mem_decimal {n : Int} {c : Char} (h : c ∈ (decimal n).toList) :
    c = '-' ∨ c.isDigit = true := by
  have hdigit : ∀ {m : Nat}, c ∈ Nat.toDigits 10 m → c.isDigit = true := fun hc =>
    Nat.isDigit_of_mem_toDigits (by decide) (by decide) hc
  cases n with
  | ofNat m => exact .inr (hdigit (toList_decimal m ▸ h))
  | negSucc m =>
    rw [toList_decimal_negSucc] at h
    rcases List.mem_cons.mp h with rfl | h
    · exact .inl rfl
    · exact .inr (hdigit h)

/-- A number in two digits is written like any other. -/
theorem mem_twoDigits {n : Int} {c : Char} (h : c ∈ (twoDigits n).toList) :
    c = '-' ∨ c.isDigit = true := by
  unfold twoDigits at h
  split at h
  · rw [String.toList_append] at h
    rcases List.mem_append.mp h with h | h
    · have hzero : c = '0' := by simpa using h
      subst hzero
      exact .inr (by decide)
    · exact mem_decimal h
  · exact mem_decimal h

/-- What holds of the minus sign and the digits holds of the characters of numbers. -/
theorem forall_numeric {P : Char → Prop} [DecidablePred P]
    (h : "-0123456789".toList.all (fun c => decide (P c)) = true) {c : Char}
    (hc : c = '-' ∨ c.isDigit = true) : P c := by
  refine of_decide_eq_true (List.all_eq_true.mp h c ?_)
  rcases hc with rfl | hc
  · decide
  · have hascii : c.toNat < 0x80 := by
      simp only [Char.isDigit, Bool.and_eq_true, decide_eq_true_eq] at hc
      have hle : c.toNat ≤ 0x39 := UInt32.le_iff_toNat_le.mp hc.2
      omega
    exact forall_ascii (P := fun c => c.isDigit = true → c ∈ "-0123456789".toList)
      (by decide +kernel) c hascii hc

/-- The characters of numbers are neither blanks nor punctuation of a line. -/
theorem numeric_field {c : Char} (h : c = '-' ∨ c.isDigit = true) :
    (isBlank c = false ∧ c ≠ ';') ∧ c ≠ '.' ∧ c ≠ ':' ∧ c ≠ ',' :=
  forall_numeric (P := fun c => (isBlank c = false ∧ c ≠ ';') ∧ c ≠ '.' ∧ c ≠ ':' ∧ c ≠ ',')
    (by decide +kernel) h

/-- A number has digits. -/
theorem decimal_ne_nil (n : Int) : (decimal n).toList ≠ [] := by
  cases n with
  | ofNat m =>
    intro hnil
    exact Nat.toDigits_ne_nil ((toList_decimal m).symm.trans hnil)
  | negSucc m =>
    rw [toList_decimal_negSucc]
    exact List.cons_ne_nil _ _

/-- A number in two digits has digits. -/
theorem twoDigits_ne_nil (n : Int) : (twoDigits n).toList ≠ [] := by
  unfold twoDigits
  split
  · simp
  · exact decimal_ne_nil n

/-! ## Names -/

/-- A name can stand in a field: it has characters, and none of them ends the field. -/
structure IsName (x : String) : Prop where
  ne_nil : x.toList ≠ []
  field : ∀ c ∈ x.toList, isBlank c = false ∧ c ≠ ';'

/-- A name is recognized by its characters. -/
theorem isName_of_all {x : String} (hne : x.toList ≠ [])
    (h : (x.toList.all fun c => !isBlank c && c != ';') = true) : IsName x := by
  refine ⟨hne, fun c hc => ?_⟩
  simpa using List.all_eq_true.mp h c hc

/-- A name stands within a line. -/
theorem IsName.inline {x : String} (h : IsName x) : Inline x.toList :=
  fun c hc => .inr (h.field c hc).1

/-- A number can stand in a field. -/
theorem isName_decimal (n : Int) : IsName (decimal n) :=
  ⟨decimal_ne_nil n, fun _ hc => (numeric_field (mem_decimal hc)).1⟩

/-- All known names can stand in a field. -/
def Names.Proper (names : Names) : Prop :=
  ∀ a x, names.find? a = some x → IsName x

/-- A name made from a number can stand in a field. -/
theorem isName_made (a : Int) : IsName ("L" ++ twoDigits a) := by
  constructor
  · simp
  · intro c hc
    rw [String.toList_append] at hc
    rcases List.mem_append.mp hc with hc | hc
    · have hletter : c = 'L' := by simpa using hc
      subst hletter
      decide
    · exact (numeric_field (mem_twoDigits hc)).1

/-- Every mailbox has a name that can stand in a field. -/
theorem Names.Proper.isName_labelFor {names : Names} (h : names.Proper) (a : Int) :
    IsName (names.labelFor a) := by
  unfold Names.labelFor
  cases hfound : names.find? a with
  | none => exact isName_made a
  | some x => exact h a x hfound

/-! ## Lines of words -/

namespace Disassembled

/-- The line of a word in its columns. -/
theorem toList_text (d : Disassembled) :
    d.text.toList = (twoDigits d.address).toList ++ ':' :: ' ' ::
      (List.replicate (5 - (decimal d.word).toList.length) ' ' ++
        ((decimal d.word).toList ++ ' ' :: ' ' :: d.statement.toList)) := by
  simp [text, padLeft]

/-- The line of a word does not begin like a label line. -/
theorem text_ne_period (d : Disassembled) (rest : List Char) : d.text.toList ≠ '.' :: rest := by
  obtain ⟨c, more, hdigits⟩ := List.exists_cons_of_ne_nil (twoDigits_ne_nil d.address)
  have hperiod := (numeric_field (mem_twoDigits (hdigits ▸ List.mem_cons_self))).2.1
  rw [toList_text, hdigits, List.cons_append]
  exact fun hline => hperiod (List.cons.inj hline).1

/-- The statement is what is left of the line of a word. -/
theorem withoutColumns_text (d : Disassembled) :
    withoutColumns d.text.toList = d.statement.toList := by
  have haddress : ∀ c ∈ (twoDigits d.address).toList, decide (c ≠ ':') = true := by
    intro c hc
    exact decide_eq_true (numeric_field (mem_twoDigits hc)).2.2.1
  have hspaces : ∀ c ∈ List.replicate (5 - (decimal d.word).toList.length) ' ',
      decide (c = ' ') = true := by
    intro c hc
    exact decide_eq_true (List.eq_of_mem_replicate hc)
  have hword : ∀ c ∈ (decimal d.word).toList, decide (c ≠ ' ') = true := by
    intro c hc
    refine decide_eq_true ?_
    rintro rfl
    exact absurd (numeric_field (mem_decimal hc)).1.1 (by decide)
  have hhead : ∀ c ∈ ((decimal d.word).toList ++ ' ' :: ' ' :: d.statement.toList).head?,
      decide (c = ' ') = false := by
    intro c hc
    rw [List.head?_append_of_ne_nil _ (decimal_ne_nil d.word)] at hc
    simpa using hword c (List.mem_of_mem_head? hc)
  rw [withoutColumns]
  · rw [toList_text, dropWhile_append_of_head haddress (by simp), List.drop_succ_cons,
      List.drop_succ_cons, List.drop_zero, dropWhile_append_of_head hspaces hhead,
      dropWhile_append_of_head hword (by simp), List.drop_succ_cons, List.drop_succ_cons,
      List.drop_zero]
  · exact d.text_ne_period

end Disassembled

/-! ## Texts -/

variable {names : Names}

/-- A label line is shown before the word at an address. -/
def isLabelled (names : Names) (targets : List Int) (address : Int) : Bool :=
  targets.contains address || (names.find? address).isSome

/-- The lines that say a word in a source text: its label line and its statement. -/
def sourceLines (names : Names) (targets : List Int) (d : Disassembled) : List String :=
  if isLabelled names targets d.address then ["." ++ names.labelFor d.address, d.statement]
  else [d.statement]

/-- The lines of a word without their columns say the word. -/
theorem map_withoutColumns_linesWithLabel (targets : List Int) (d : Disassembled) :
    ((linesWithLabel names targets d).map String.toList).map withoutColumns =
      (sourceLines names targets d).map String.toList := by
  have hlabel : withoutColumns ("." ++ names.labelFor d.address).toList =
      ("." ++ names.labelFor d.address).toList := by
    rw [String.toList_append]
    rfl
  unfold linesWithLabel sourceLines isLabelled
  split
  · simp only [List.map_cons, List.map_nil, hlabel, d.withoutColumns_text]
  · simp only [List.map_cons, List.map_nil, d.withoutColumns_text]

/-- A mnemonic stands within a line. -/
theorem inline_mnemonic (d : Disassembled) : Inline d.mnemonic.toList := by
  have hopcode : ∀ op : Opcode, Inline op.mnemonic.toList := by
    intro op c hc
    have hlower := op.mnemonic_isLower c hc
    have hascii := (op.mnemonic_ascii c hc).1
    exact .inr (forall_ascii (P := fun c => c.isLower = true → isBlank c = false)
      (by decide +kernel) c hascii hlower)
  unfold Disassembled.mnemonic
  split
  next =>
    have hall : "DAT".toList.all (!isBlank ·) = true := by decide
    exact fun c hc => .inr (by simpa using List.all_eq_true.mp hall c hc)
  next op _ => exact hopcode (.plain op)
  next op _ _ => exact hopcode (.mailbox op)
  next op _ _ _ => exact hopcode (.branch op)

/-- The statement of a word stands within a line. -/
theorem inline_statement (hnames : names.Proper) {d : Disassembled}
    (hd : d.content = .ofWord names d.word) : Inline d.statement.toList := by
  have hoperand : Inline d.operand.toList := by
    unfold Disassembled.operand
    split
    next => exact (isName_decimal d.word).inline
    next => exact fun c hc => absurd hc (by simp)
    next => exact (isName_decimal _).inline
    next op target label hcontent =>
      have hlabel : label = names.labelFor target.val := by
        rw [hd, Content.ofWord] at hcontent
        split at hcontent <;> cases hcontent
        rfl
      rw [hlabel]
      exact (hnames.isName_labelFor _).inline
  unfold Disassembled.statement
  split
  · exact inline_mnemonic d
  · rw [String.toList_append, String.toList_append]
    refine ((inline_mnemonic d).append ?_).append hoperand
    intro c hc
    exact .inl (by simpa using hc)

/-- The line of a word has no line end in it. -/
theorem inline_text (hnames : names.Proper) {d : Disassembled}
    (hd : d.content = .ofWord names d.word) : Inline d.text.toList := by
  intro c hc
  rw [d.toList_text] at hc
  simp only [List.mem_append, List.mem_cons, List.mem_replicate] at hc
  rcases hc with haddress | rfl | rfl | ⟨-, rfl⟩ | hword | rfl | rfl | hstatement
  · exact .inr (numeric_field (mem_twoDigits haddress)).1.1
  · decide
  · decide
  · decide
  · exact (isName_decimal d.word).inline c hword
  · decide
  · decide
  · exact inline_statement hnames hd c hstatement

/-- A label line has no line end in it. -/
theorem inline_labelLine (hnames : names.Proper) (a : Int) :
    Inline ("." ++ names.labelFor a).toList := by
  rw [String.toList_append]
  refine Inline.append ?_ (hnames.isName_labelFor a).inline
  intro c hc
  have hperiod : c = '.' := by simpa using hc
  subst hperiod
  decide

/-- Neither the lines of a word nor its source lines have line ends in them. -/
theorem inline_lines (hnames : names.Proper) {targets : List Int} {d : Disassembled}
    (hd : d.content = .ofWord names d.word) {line : String}
    (h : line ∈ linesWithLabel names targets d ∨ line ∈ sourceLines names targets d) :
    Inline line.toList := by
  have hlines : line = "." ++ names.labelFor d.address ∨ line = d.text ∨
      line = d.statement := by
    unfold linesWithLabel sourceLines at h
    grind
  rcases hlines with rfl | rfl | rfl
  · exact inline_labelLine hnames d.address
  · exact inline_text hnames hd
  · exact inline_statement hnames hd

/-- Every word is shown at its address. -/
theorem getElem?_disassembleFrom (names : Names) (address : Int) (words : List Int) (n : Nat) :
    (disassembleFrom names address words)[n]? =
      words[n]?.map fun word => disassembleWord names word (address + n) := by
  induction words generalizing address n with
  | nil => rfl
  | cons word rest ih =>
    cases n with
    | zero => simp [disassembleFrom]
    | succ n =>
      have haddress : address + ((n + 1 : Nat) : Int) = address + 1 + n := by omega
      rw [disassembleFrom, List.getElem?_cons_succ, List.getElem?_cons_succ, ih, haddress]

/-- The words that are shown. -/
theorem mem_disassembleFrom_iff {address : Int} {words : List Int} {d : Disassembled} :
    d ∈ disassembleFrom names address words ↔
      ∃ (n : Nat) (word : Int), words[n]? = some word ∧
        disassembleWord names word (address + n) = d := by
  simp only [List.mem_iff_getElem?, getElem?_disassembleFrom, Option.map_eq_some_iff]

/-- Every word is shown with its content. -/
theorem content_of_mem_disassemble {d : Disassembled} {words : List Int} {start : Int}
    {count : Option Int} (h : d ∈ disassemble names words start count) :
    d.content = .ofWord names d.word := by
  obtain ⟨n, word, -, rfl⟩ := mem_disassembleFrom_iff.mp h
  rfl

/-- A text of lines is divided into these lines. -/
theorem splitOn_intercalate_lines {lines : List String} (hne : lines ≠ [])
    (h : ∀ line ∈ lines, '\n' ∉ line.toList) :
    ("\n".intercalate lines).toList.splitOn '\n' = lines.map String.toList :=
  splitOn_intercalate_texts rfl hne h

/-- A character of texts with separators is in a separator or in one of the texts. -/
theorem exists_of_mem_intercalate {separator : String} {texts : List String} {c : Char}
    (h : c ∈ (separator.intercalate texts).toList) :
    c ∈ separator.toList ∨ ∃ text ∈ texts, c ∈ text.toList := by
  induction texts with
  | nil => simp at h
  | cons text rest ih =>
    cases rest with
    | nil => exact .inr ⟨text, List.mem_cons_self, by simpa using h⟩
    | cons next more =>
      rw [String.intercalate_cons_cons, String.toList_append, String.toList_append,
        List.mem_append, List.mem_append] at h
      rcases h with (h | h) | h
      · exact .inr ⟨text, List.mem_cons_self, h⟩
      · exact .inl h
      · refine (ih h).imp_right ?_
        rintro ⟨other, hother, hc⟩
        exact ⟨other, List.mem_cons_of_mem _ hother, hc⟩

/-- The source form of a disassembly has the label lines and the statements of its
words. -/
theorem sourceForm_disassemblyText (hnames : names.Proper) (words : List Int) (start : Int)
    (count : Option Int) :
    sourceForm (disassemblyText names words start count) =
      "\n".intercalate ((disassemble names words start count).flatMap
        (sourceLines names (branchTargets (disassemble names words start count)))) := by
  generalize hshown : disassemble names words start count = shown
  have hinline : ∀ line ∈ disassemblyLines names words start count, Inline line.toList := by
    intro line hline
    rw [disassemblyLines, hshown] at hline
    obtain ⟨d, hd, hline⟩ := List.mem_flatMap.mp hline
    rw [← hshown] at hd
    exact inline_lines hnames (content_of_mem_disassemble hd) (.inl hline)
  have hlines : ((disassemblyLines names words start count).map String.toList).map
      withoutColumns =
        (shown.flatMap (sourceLines names (branchTargets shown))).map String.toList := by
    simp only [disassemblyLines, hshown, List.map_flatMap, map_withoutColumns_linesWithLabel]
  apply String.toList_inj.mp
  rw [sourceForm, String.toList_ofList, String.toList_intercalate, disassemblyText, ← hlines]
  by_cases hnone : disassemblyLines names words start count = []
  · rw [hnone]
    rfl
  · rw [splitOn_intercalate_lines hnone fun line hline => (hinline line hline).not_mem.1]
    rfl

end Mailroom
