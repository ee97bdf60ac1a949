import Mailroom.Proofs.LineGrammar

/-!
# The grammar of a text

A source text is read line by line, and what follows a refused line is not looked at.

Main definitions:

- `Divides` divides a text at its line feeds, and `IsLine` ends a line.
- `ReadsFrom` reads lines by the grammar of a line, and `Describes` reads a text.
- `ReachesOverlong` and `MeetsOverlong` say that reading comes to a mailbox number of too
  many digits.

Main results:

- Theorem `Reading.ofSource_eq_iff`: a text is read as the grammar with the limit on
  digits says, and as nothing else.
- Theorem `Reading.forall_ofSource_eq_iff`: as the grammar without a limit says, exactly
  when reading comes to no overlong line.
- Theorem `Reading.ofSource_grammar` joins the two.
-/

namespace Mailroom

open Text

/-! ## Lines -/

/-- A text is divided at its line feeds. -/
structure Divides (raws : List (List Char)) (cs : List Char) : Prop where
  ne_nil : raws ≠ []
  no_feed : ∀ raw ∈ raws, '\n' ∉ raw
  text : ['\n'].intercalate raws = cs

/-- A line is what is left without the carriage returns at its end. -/
def IsLine (raw chars : List Char) : Prop :=
  (∃ returns, (∀ c ∈ returns, c = '\r') ∧ raw = chars ++ returns) ∧
    ∀ c ∈ chars.getLast?, c ≠ '\r'

/-- Reading lines, the first of which has the given number, by the grammar of a line. -/
inductive ReadsFrom (limit : Option Nat) (file : String) :
    Int → List (List Char) → Reading → Prop
  | done (number : Int) : ReadsFrom limit file number [] ⟨[], none⟩
  | silent {number : Int} {raw chars : List Char} {rest : List (List Char)} {r : Reading}
      (hraw : IsLine raw chars) (hline : Reads limit ⟨file, number, chars⟩ (.ok none))
      (hrest : ReadsFrom limit file (number + 1) rest r) :
      ReadsFrom limit file number (raw :: rest) r
  | token {number : Int} {raw chars : List Char} {rest : List (List Char)} {t : Token}
      {r : Reading} (hraw : IsLine raw chars)
      (hline : Reads limit ⟨file, number, chars⟩ (.ok (some t)))
      (hrest : ReadsFrom limit file (number + 1) rest r) :
      ReadsFrom limit file number (raw :: rest) ⟨t :: r.tokens, r.refusal⟩
  | refused {number : Int} {raw chars : List Char} {rest : List (List Char)} {e : Refusal}
      (hraw : IsLine raw chars) (hline : Reads limit ⟨file, number, chars⟩ (.error e)) :
      ReadsFrom limit file number (raw :: rest) ⟨[], some e⟩

/-- The reading of a text by the grammar. -/
def Describes (limit : Option Nat) (file : String) (first : Int) (source : String)
    (r : Reading) : Prop :=
  ∃ raws, Divides raws source.toList ∧ ReadsFrom limit file first raws r

/-- Lines that say something in the language, and after them an overlong one. -/
inductive ReachesOverlong (file : String) : Int → List (List Char) → Prop
  | here {number : Int} {raw chars : List Char} {rest : List (List Char)}
      (hraw : IsLine raw chars) (hline : Overlong chars) :
      ReachesOverlong file number (raw :: rest)
  | later {number : Int} {raw chars : List Char} {rest : List (List Char)}
      {found : Option Token} (hraw : IsLine raw chars)
      (hline : Reads none ⟨file, number, chars⟩ (.ok found))
      (hrest : ReachesOverlong file (number + 1) rest) :
      ReachesOverlong file number (raw :: rest)

/-- No part between line feeds holds one. -/
theorem not_mem_of_mem_splitOn {a : Char} {cs part : List Char} (h : part ∈ cs.splitOn a) :
    a ∉ part := by
  induction cs generalizing part with
  | nil =>
    have hpart : part = [] := by simpa using h
    simp [hpart]
  | cons c rest ih =>
    rw [List.splitOn_cons_eq_if_modifyHead] at h
    by_cases hc : c == a
    · rw [if_pos hc] at h
      rcases List.mem_cons.mp h with rfl | h
      · exact List.not_mem_nil
      · exact ih h
    · rw [if_neg hc] at h
      rcases List.exists_cons_of_ne_nil (List.splitOn_ne_nil a rest) with ⟨head, tail, hsplit⟩
      rw [hsplit, List.modifyHead_cons] at h
      rcases List.mem_cons.mp h with rfl | h
      · have hhead : a ∉ head := ih (by rw [hsplit]; exact List.mem_cons_self)
        have hne : a ≠ c := by
          rintro rfl
          exact hc (beq_self_eq_true a)
        simp [hne, hhead]
      · exact ih (by rw [hsplit]; exact List.mem_cons_of_mem _ h)

/-- Texts without a character are the parts between its occurrences, if it separates them. -/
theorem splitOn_intercalate_texts {separator : String} {c : Char} {texts : List String}
    (hseparator : separator.toList = [c]) (hne : texts ≠ [])
    (h : ∀ text ∈ texts, c ∉ text.toList) :
    (separator.intercalate texts).toList.splitOn c = texts.map String.toList := by
  rw [String.toList_intercalate, hseparator]
  refine List.splitOn_intercalate c ?_ (by simpa using hne)
  intro part hpart
  obtain ⟨text, htext, rfl⟩ := List.mem_map.mp hpart
  exact h text htext

/-- A text is divided at its line feeds in one way. -/
theorem divides_iff {raws : List (List Char)} {cs : List Char} :
    Divides raws cs ↔ cs.splitOn '\n' = raws := by
  constructor
  · intro h
    rw [← h.text]
    exact List.splitOn_intercalate '\n' h.no_feed h.ne_nil
  · rintro rfl
    exact ⟨List.splitOn_ne_nil _ _, fun _ h => not_mem_of_mem_splitOn h,
      List.intercalate_splitOn '\n'⟩

/-- A line ends in one way. -/
theorem isLine_iff {raw chars : List Char} :
    IsLine raw chars ↔ dropTrailing (· = '\r') raw = chars := by
  rw [dropTrailing_eq_iff]
  simp [IsLine]

/-- Lines with ascending numbers, the first of which is given. -/
def linesFrom (file : String) (number : Int) : List (List Char) → List SourceLine
  | [] => []
  | raw :: rest =>
    ⟨file, number, dropTrailing (· = '\r') raw⟩ :: linesFrom file (number + 1) rest

/-- The lines of a text have ascending numbers. -/
theorem linesOf_eq_linesFrom (file : String) (first : Int) (source : String) :
    linesOf file first source = linesFrom file first (source.toList.splitOn '\n') := by
  have hfrom : ∀ (raws : List (List Char)) (start : Nat),
      ((raws.zipIdx start).map fun line =>
        (⟨file, first + line.2, dropTrailing (· = '\r') line.1⟩ : SourceLine)) =
        linesFrom file (first + start) raws := by
    intro raws
    induction raws with
    | nil => exact fun start => rfl
    | cons raw rest ih =>
      intro start
      have hnumber : first + ((start + 1 : Nat) : Int) = first + (start : Int) + 1 := by omega
      rw [List.zipIdx_cons, List.map_cons, ih, hnumber]
      rfl
  have hzero := hfrom (source.toList.splitOn '\n') 0
  rwa [Int.natCast_zero, Int.add_zero] at hzero

/-! ## Reading lines -/

/-- Every token comes from one of the lines. -/
theorem Reading.exists_line_of_mem {t : Token} {lines : List SourceLine}
    (h : t ∈ (ofLines lines).tokens) : ∃ l ∈ lines, l.token? = .ok (some t) := by
  induction lines with
  | nil => exact absurd h List.not_mem_nil
  | cons l rest ih =>
    have hlater : t ∈ (ofLines rest).tokens → ∃ k ∈ l :: rest, k.token? = .ok (some t) := by
      intro hmem
      obtain ⟨k, hk, hread⟩ := ih hmem
      exact ⟨k, List.mem_cons_of_mem _ hk, hread⟩
    unfold ofLines at h
    split at h
    next => exact absurd h List.not_mem_nil
    next => exact hlater h
    next found hfound =>
      rcases List.mem_cons.mp h with rfl | h
      · exact ⟨l, List.mem_cons_self, hfound⟩
      · exact hlater h

/-- Lines are read as the grammar with the limit on digits says, and as nothing else. -/
theorem Reading.ofLines_eq_iff {file : String} {number : Int} {raws : List (List Char)}
    {r : Reading} :
    ofLines (linesFrom file number raws) = r ↔
      ReadsFrom (some digitLimit) file number raws r := by
  induction raws generalizing number r with
  | nil =>
    constructor
    · rintro rfl
      exact .done _
    · intro h
      cases h
      rfl
  | cons raw rest ih =>
    have hraw : IsLine raw (dropTrailing (· = '\r') raw) := isLine_iff.mpr rfl
    rw [linesFrom, ofLines]
    constructor
    · rintro rfl
      have hrest : ReadsFrom (some digitLimit) file (number + 1) rest
          (ofLines (linesFrom file (number + 1) rest)) := ih.mp rfl
      split
      next e hline => exact .refused hraw (SourceLine.token?_eq_iff_reads.mp hline)
      next hline => exact .silent hraw (SourceLine.token?_eq_iff_reads.mp hline) hrest
      next t hline => exact .token hraw (SourceLine.token?_eq_iff_reads.mp hline) hrest
    · intro h
      cases h with
      | silent hchars hline hrest =>
        rw [isLine_iff] at hchars
        subst hchars
        rw [SourceLine.token?_eq_iff_reads.mpr hline]
        exact ih.mpr hrest
      | token hchars hline hrest =>
        rw [isLine_iff] at hchars
        subst hchars
        rw [SourceLine.token?_eq_iff_reads.mpr hline]
        simp only [ih.mpr hrest]
      | refused hchars hline =>
        rw [isLine_iff] at hchars
        subst hchars
        rw [SourceLine.token?_eq_iff_reads.mpr hline]

/-- A text is read as the grammar with the limit on digits says, and as nothing else. -/
theorem Reading.ofSource_eq_iff {file : String} {first : Int} {source : String}
    {r : Reading} :
    ofSource file first source = r ↔ Describes (some digitLimit) file first source r := by
  rw [ofSource, linesOf_eq_linesFrom, ofLines_eq_iff]
  constructor
  · intro h
    exact ⟨_, divides_iff.mpr rfl, h⟩
  · rintro ⟨raws, hraws, h⟩
    rwa [divides_iff.mp hraws]

/-! ## Long numerals -/

/-- Without a limit on digits no text is refused for a long numeral. -/
theorem ReadsFrom.refusal_ne_longNumeral {file : String} {number : Int}
    {raws : List (List Char)} {r : Reading} (h : ReadsFrom none file number raws r)
    (cause : NumeralTooLong) : r.refusal ≠ some (.longNumeral cause) := by
  induction h with
  | done =>
    intro hr
    exact absurd hr (by simp)
  | silent _ _ _ ih => exact ih
  | token _ _ _ ih => exact ih
  | refused _ hline =>
    intro hr
    exact hline.ne_longNumeral cause (congrArg Except.error (Option.some.inj hr))

/-- A text is refused for a long numeral when reading comes to an overlong line. -/
theorem ReachesOverlong.refusal {file : String} {number : Int} {raws : List (List Char)}
    (h : ReachesOverlong file number raws) :
    ∃ cause, (Reading.ofLines (linesFrom file number raws)).refusal =
      some (.longNumeral cause) := by
  have hhere : ∀ {number raw rest}, Overlong (dropTrailing (· = '\r') raw) →
      ∃ cause, (Reading.ofLines (linesFrom file number (raw :: rest))).refusal =
        some (.longNumeral cause) := by
    intro number raw rest hlong
    rcases SourceLine.token?_of_overlong
      (l := ⟨file, number, dropTrailing (· = '\r') raw⟩) hlong with ⟨cause, hline⟩
    refine ⟨cause, ?_⟩
    rw [linesFrom, Reading.ofLines, hline]
  induction h with
  | here hraw hlong =>
    rw [isLine_iff] at hraw
    subst hraw
    exact hhere hlong
  | @later number raw chars rest found hraw hline hrest ih =>
    rw [isLine_iff] at hraw
    subst hraw
    by_cases hlong : Overlong (dropTrailing (· = '\r') raw)
    · exact hhere hlong
    · have htoken := (SourceLine.token?_eq_iff_reads_unlimited hlong).mpr hline
      rw [linesFrom, Reading.ofLines, htoken]
      cases found with
      | none => exact ih
      | some t => exact ih

/-- A change of the limit on digits does not matter to lines that do not lead to an
overlong one. -/
theorem ReadsFrom.change_limit {first second : Option Nat} {file : String} {number : Int}
    {raws : List (List Char)} {r : Reading}
    (hfirst : ∀ {l r}, ¬ Overlong l.chars → Reads first l r → Reads none l r)
    (hsecond : ∀ {l r}, ¬ Overlong l.chars → Reads none l r → Reads second l r)
    (hreach : ¬ ReachesOverlong file number raws) (h : ReadsFrom first file number raws r) :
    ReadsFrom second file number raws r := by
  induction h with
  | done number => exact .done number
  | silent hraw hline _ ih =>
    have hshort := fun hlong => hreach (.here hraw hlong)
    have hreads := hfirst hshort hline
    exact .silent hraw (hsecond hshort hreads) (ih fun h => hreach (.later hraw hreads h))
  | token hraw hline _ ih =>
    have hshort := fun hlong => hreach (.here hraw hlong)
    have hreads := hfirst hshort hline
    exact .token hraw (hsecond hshort hreads) (ih fun h => hreach (.later hraw hreads h))
  | refused hraw hline =>
    have hshort := fun hlong => hreach (.here hraw hlong)
    exact .refused hraw (hsecond hshort (hfirst hshort hline))

/-- Lines are read as the grammar without a limit on digits says, unless reading comes to
an overlong one. -/
theorem Reading.ofLines_eq_iff_unlimited {file : String} {number : Int}
    {raws : List (List Char)} {r : Reading} (h : ¬ ReachesOverlong file number raws) :
    ofLines (linesFrom file number raws) = r ↔ ReadsFrom none file number raws r := by
  rw [ofLines_eq_iff]
  constructor
  · exact ReadsFrom.change_limit (fun hshort => (reads_unlimited_iff hshort).mpr)
      (fun _ hline => hline) h
  · exact ReadsFrom.change_limit (fun _ hline => hline)
      (fun hshort => (reads_unlimited_iff hshort).mp) h

/-- Reading a text comes to an overlong line. -/
def MeetsOverlong (file : String) (first : Int) (source : String) : Prop :=
  ∃ raws, Divides raws source.toList ∧ ReachesOverlong file first raws

/-- A text is read as the grammar without a limit on digits says, and as nothing else,
exactly when reading comes to no overlong line. -/
theorem Reading.forall_ofSource_eq_iff {file : String} {first : Int} {source : String} :
    (∀ r, ofSource file first source = r ↔ Describes none file first source r) ↔
      ¬ MeetsOverlong file first source := by
  rw [ofSource, linesOf_eq_linesFrom]
  constructor
  · rintro hall ⟨raws, hraws, hreach⟩
    rcases (hall _).mp rfl with ⟨raws', hraws', hreads⟩
    rw [divides_iff] at hraws hraws'
    subst hraws hraws'
    rcases hreach.refusal with ⟨cause, hcause⟩
    exact hreads.refusal_ne_longNumeral cause hcause
  · intro hmeets r
    have hdivides : Divides (source.toList.splitOn '\n') source.toList := divides_iff.mpr rfl
    have hreach : ¬ ReachesOverlong file first (source.toList.splitOn '\n') := fun h =>
      hmeets ⟨_, hdivides, h⟩
    rw [ofLines_eq_iff_unlimited hreach]
    constructor
    · intro h
      exact ⟨_, hdivides, h⟩
    · rintro ⟨raws, hraws, h⟩
      rwa [divides_iff.mp hraws]

/-! ## The language -/

/-- A text is read as the grammar with the limit on digits says, and as nothing else.  The
grammar without the limit says the same exactly when reading comes to no overlong line.
Only ASCII characters are folded into a mnemonic. -/
theorem Reading.ofSource_grammar (file : String) (first : Int) (source : String) :
    (∀ r, ofSource file first source = r ↔ Describes (some digitLimit) file first source r) ∧
      ((∀ r, ofSource file first source = r ↔ Describes none file first source r) ↔
        ¬ MeetsOverlong file first source) ∧
      ∀ field op, Opcode.ofMnemonic? (String.ofList (lower field)) = some op →
        ∀ c ∈ field, c.toNat < 0x80 := by
  refine ⟨fun r => ofSource_eq_iff, forall_ofSource_eq_iff, ?_⟩
  intro field op hop c hc
  have hspells : Spells field op := Opcode.ofMnemonic?_lower_eq_some_iff.mp hop
  have hletter : c.toLower ∈ op.mnemonic.toList := by
    rw [← hspells]
    exact List.mem_map_of_mem hc
  exact (toNat_toLower_lt_iff c).mp (op.mnemonic_ascii _ hletter).1

/-- An addition to mailbox 0, whose number is written with the given number of zeros and
one more. -/
def zerosLine (n : Nat) : List Char :=
  'a' :: 'd' :: 'd' :: ' ' :: List.replicate (n + 1) '0'

/-- Zeros are an operand of an addition. -/
theorem derives_zerosLine (n : Nat) :
    Derives (zerosLine n) (.applied (.mailbox .add) (List.replicate (n + 1) '0')) := by
  have hzero : ∀ c ∈ List.replicate (n + 1) '0', c = '0' := fun c hc =>
    List.eq_of_mem_replicate hc
  have hfree : ∀ d, d ≠ '0' → d ∉ List.replicate (n + 1) '0' := fun d hd hmem =>
    hd (hzero d hmem)
  have htrimmed : Trimmed (List.replicate (n + 1) '0') := by
    constructor
    · intro c hc
      rw [hzero c (List.mem_of_mem_head? hc)]
      decide
    · intro c hc
      rw [hzero c (List.mem_of_getLast? hc)]
      decide
  have hoperand : IsOperand (List.replicate (n + 1) '0') :=
    ⟨List.cons_ne_nil _ _, hfree ',' (by decide), htrimmed⟩
  have hline : zerosLine n =
      [] ++ ['a', 'd', 'd'] ++ (' ' :: [] ++ List.replicate (n + 1) '0' ++ []) ++ [] := by
    simp [zerosLine]
  have hcomment : Comment [] := by simp [Comment]
  have hspells : Spells ['a', 'd', 'd'] (.mailbox .add) := by decide
  exact .applied (List.forall_mem_nil _) rfl hspells (by decide) (List.forall_mem_nil _) hoperand
    (hfree ';' (by decide)) (List.forall_mem_nil _) hcomment hline

/-- Zeros are a numeral. -/
theorem isNumeral_zeros (n : Nat) :
    IsNumeral (List.replicate (n + 1) '0') (List.replicate (n + 1) '0') := by
  refine ⟨.inl rfl, List.cons_ne_nil _ _, ?_⟩
  intro c hc
  rw [List.eq_of_mem_replicate hc]
  decide

/-- The value of zeros is zero. -/
theorem numeralValue_zeros (n : Nat) : numeralValue (List.replicate n '0') = 0 := by
  induction n with
  | zero => rfl
  | succ n ih => exact ih

/-- Zeros within the limit on digits are mailbox 0. -/
theorem reads_zerosLine {limit : Option Nat} {n : Nat} (h : WithinLimit limit (n + 1))
    (file : String) (number : Int) :
    Reads limit ⟨file, number, zerosLine n⟩
      (.ok (some (.instruction
        ⟨.access .add 0, ⟨file, number, 1⟩, String.ofList (zerosLine n)⟩))) := by
  have hlimit : WithinLimit limit (List.replicate (n + 1) '0').length := by
    rwa [List.length_replicate]
  have hvalue : numeralValue (List.replicate (n + 1) '0') ≤ maxOperand := by
    rw [numeralValue_zeros]
    exact Nat.zero_le _
  have hmeans := Means.access (l := ⟨file, number, zerosLine n⟩) .add (isNumeral_zeros n)
    hlimit hvalue
  rw [numeralValue_zeros] at hmeans
  exact .sentence (derives_zerosLine n) hmeans

/-- Zeros beyond the limit on digits are refused. -/
theorem reads_zerosLine_of_not_within {limit : Option Nat} {n : Nat}
    (h : ¬ WithinLimit limit (n + 1)) (file : String) (number : Int) :
    Reads limit ⟨file, number, zerosLine n⟩ (.error (.longNumeral ⟨n + 1⟩)) := by
  have hlimit : ¬ WithinLimit limit (List.replicate (n + 1) '0').length := by
    rwa [List.length_replicate]
  have hmeans := Means.longNumeral (l := ⟨file, number, zerosLine n⟩) .add
    (isNumeral_zeros n) hlimit
  rw [List.length_replicate] at hmeans
  exact .sentence (derives_zerosLine n) hmeans

/-- A line of zeros is made of the characters of its mnemonic, a space and zeros. -/
theorem not_mem_zerosLine {c : Char} (hc : c ∉ ['a', 'd', 'd', ' ', '0']) (n : Nat) :
    c ∉ zerosLine n := by
  intro hmem
  apply hc
  simp only [zerosLine, List.mem_cons, List.mem_replicate] at hmem
  simp only [List.mem_cons]
  tauto

/-- A line of zeros is a text of one line. -/
theorem divides_zerosLine (n : Nat) :
    Divides [zerosLine n] (String.ofList (zerosLine n)).toList ∧
      IsLine (zerosLine n) (zerosLine n) := by
  constructor
  · rw [String.toList_ofList, divides_iff,
      List.splitOn_eq_singleton (not_mem_zerosLine (by decide) n)]
  · refine ⟨⟨[], by simp, by simp⟩, ?_⟩
    intro c hc hreturn
    rw [hreturn] at hc
    exact not_mem_zerosLine (c := '\r') (by decide) n (List.mem_of_getLast? hc)

/-- A text of 4301 zeros is refused for its numeral. -/
theorem Reading.ofSource_zerosLine (file : String) :
    ofSource file 1 (String.ofList (zerosLine 4300)) = ⟨[], some (.longNumeral ⟨4301⟩)⟩ := by
  have hlimited : ¬ WithinLimit (some digitLimit) (4300 + 1) := by
    intro h
    exact absurd (h digitLimit rfl) (by decide)
  obtain ⟨hdivides, hline⟩ := divides_zerosLine 4300
  exact ofSource_eq_iff.mpr
    ⟨_, hdivides, .refused hline (reads_zerosLine_of_not_within hlimited _ _)⟩

/-- The grammar without a limit on digits reads a mailbox number of 4301 zeros as 0, and
the text is refused for the numeral. -/
theorem Reading.ofSource_zeros :
    Describes none "<input>" 1 (String.ofList (zerosLine 4300))
        ⟨[.instruction ⟨.access .add 0, ⟨"<input>", 1, 1⟩, String.ofList (zerosLine 4300)⟩],
          none⟩ ∧
      ofSource "<input>" 1 (String.ofList (zerosLine 4300)) =
        ⟨[], some (.longNumeral ⟨4301⟩)⟩ := by
  rcases divides_zerosLine 4300 with ⟨hdivides, hline⟩
  have hunlimited : WithinLimit none (4300 + 1) := by
    intro most hmost
    exact absurd hmost (Option.not_mem_none most)
  have hlimited : ¬ WithinLimit (some digitLimit) (4300 + 1) := by
    intro h
    exact absurd (h digitLimit rfl) (by decide)
  constructor
  · exact ⟨_, hdivides, .token hline (reads_zerosLine hunlimited _ _) (.done _)⟩
  · exact ofSource_eq_iff.mpr
      ⟨_, hdivides, .refused hline (reads_zerosLine_of_not_within hlimited _ _)⟩

end Mailroom
