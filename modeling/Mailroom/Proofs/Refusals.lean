import Mailroom.Proofs.Generation
import Mailroom.Proofs.TextGrammar

/-!
# What a text is refused for

A text that is not assembled has one cause for it: the first line that is refused, or else a
duplicate among strict labels, or else the first instruction without a mailbox.  The report
about the cause quotes a line of the text and points at its first character.

Main definitions:

- `LineAt` says that a line of a text has a number.
- `Fails` gives the cause for which a text is refused.
- `Diagnostic.IsAt` says that a report has the place of a token.
- `Diagnostic.PointsAt` says that a report quotes a line and points at its first character.

Main results:

- Theorem `Assembler.assemble_eq_error_iff`: a text is refused for its cause.
- Theorem `Fails.pointsAt`: a cause is reported at a line of the text, unless it is a long
  numeral.
- Theorem `Assembler.assemble_refusal` joins them.
-/

namespace Mailroom

open Text

/-! ## Lines and causes -/

/-- In a named text the line has `n` lines before it. -/
structure LineAt (file source : String) (n : Nat) (l : SourceLine) : Prop where
  file : l.file = file
  number : l.number = n + 1
  chars : ∃ raws raw, Divides raws source.toList ∧ raws[n]? = some raw ∧ IsLine raw l.chars

/-- The cause for which a text is refused: its first line that cannot be read.  A text that
can be read is refused for the first duplicate, if labels are strict, and else for the first
instruction without a mailbox. -/
inductive Fails (limit : Option Nat) (strict : Bool) (file source : String) : Refusal → Prop
  | line {n : Nat} {l : SourceLine} {e : Refusal} (hline : LineAt file source n l)
      (hrefused : Reads limit l (.error e))
      (hfirst : ∀ m k, m < n → LineAt file source m k → ∃ found, Reads limit k (.ok found)) :
      Fails limit strict file source e
  | duplicate {tokens : List Token} {earlier label : Located String} {m n : Nat}
      (hread : Describes limit file 1 source ⟨tokens, none⟩) (hstrict : strict = true)
      (hfirst : FirstDuplicate tokens earlier m label n) :
      Fails limit strict file source (.report (Mailroom.duplicate label ⟨m, earlier.location⟩))
  | instruction {tokens : List Token} {symbols : List (String × Nat)}
      {before after : List (Located Instruction)} {i : Located Instruction} {e : Refusal}
      (hread : Describes limit file 1 source ⟨tokens, none⟩)
      (hstrict : strict = true → DistinctLabels tokens) (hsymbols : IsSymbolList tokens symbols)
      (hsplit : instructionsOf tokens = before ++ i :: after)
      (hbefore : ∀ j ∈ before, ∃ word, Encodes tokens j word)
      (hrefuses : Refuses tokens (symbols.map (·.1)) i e) : Fails limit strict file source e

/-- The complaint is about the form of a line. -/
def Complaint.IsSyntax : Complaint → Prop
  | invalidInstruction _ => True
  | badNumber _ => True
  | _ => False

/-- The complaint is a general remark. -/
def Complaint.IsRemark : Complaint → Prop
  | remark _ _ => True
  | _ => False

/-- The refusal is about the form of a line. -/
def Refusal.IsSyntax : Refusal → Prop
  | report d => d.complaint.IsSyntax
  | longNumeral _ => True
  | badAddress _ => False

/-- A diagnostic points at the first character of a line that is no blank.  Its report quotes
the line above a caret under this character. -/
def Diagnostic.PointsAt (d : Diagnostic) (l : SourceLine) : Prop :=
  d.sourceLine = some l.text ∧ ∃ indent c rest, l.chars = indent ++ c :: rest ∧
    Blanks indent ∧ isBlank c = false ∧
    d.location = some ⟨l.file, l.number, indent.length + 1⟩ ∧
    ∃ heading margin, d.report = heading :: (margin ++ l.text) ::
      (margin ++ String.ofList (List.replicate indent.length ' ') ++ "^") :: d.hintLines

/-- A diagnostic has the place and the source line of a token. -/
def Diagnostic.IsAt (d : Diagnostic) (t : Token) : Prop :=
  d.location = some t.location ∧ d.sourceLine = some t.sourceLine

/-! ## Lines of a text -/

/-- The lines of a text are those that its division gives. -/
theorem lineAt_iff {file source : String} {n : Nat} {l : SourceLine} :
    LineAt file source n l ↔ (linesOf file 1 source)[n]? = some l := by
  have hget : (linesOf file 1 source)[n]? =
      ((source.toList.splitOn '\n')[n]?).map fun raw =>
        ⟨file, n + 1, dropTrailing (· = '\r') raw⟩ := by
    simp only [linesOf, List.getElem?_map, List.getElem?_zipIdx, Option.map_map, Nat.zero_add,
      Int.add_comm]
    rfl
  rw [hget, Option.map_eq_some_iff]
  constructor
  · rintro ⟨rfl, hnumber, raws, raw, hdivides, hraw, hline⟩
    rw [divides_iff] at hdivides
    rw [isLine_iff] at hline
    refine ⟨raw, by rw [hdivides, hraw], ?_⟩
    rw [hline, ← hnumber]
  · rintro ⟨raw, hraw, rfl⟩
    exact ⟨rfl, rfl, _, raw, divides_iff.mpr rfl, hraw, isLine_iff.mpr rfl⟩

/-! ## The first line that is refused -/

/-- Of some lines the first one that is refused is refused for this cause. -/
def FirstRefused (limit : Option Nat) (lines : List SourceLine) (e : Refusal) : Prop :=
  ∃ (n : Nat) (l : SourceLine), lines[n]? = some l ∧ Reads limit l (.error e) ∧
    ∀ (m : Nat) (k : SourceLine), m < n → lines[m]? = some k → ∃ found, Reads limit k (.ok found)

section FirstLine

variable {limit : Option Nat} {file : String} {number : Int} {raws : List (List Char)}
  {e : Refusal}

/-- A line that is read leaves the refusal to the lines after it. -/
theorem FirstRefused.cons {lines : List SourceLine} {l : SourceLine} {found : Option Token}
    (hline : Reads limit l (.ok found)) (h : FirstRefused limit lines e) :
    FirstRefused limit (l :: lines) e := by
  obtain ⟨n, refused, hrefused, hreads, hfirst⟩ := h
  refine ⟨n + 1, refused, hrefused, hreads, fun m k hm hk => ?_⟩
  cases m with
  | zero =>
    cases hk
    exact ⟨found, hline⟩
  | succ m => exact hfirst m k (Nat.lt_of_succ_lt_succ hm) hk

/-- Reading lines ends at the first one that is refused. -/
theorem exists_readsFrom_refused_iff :
    (∃ r, ReadsFrom limit file number raws r ∧ r.refusal = some e) ↔
      FirstRefused limit (linesFrom file number raws) e := by
  induction raws generalizing number with
  | nil =>
    constructor
    · rintro ⟨r, h, hr⟩
      cases h
      contradiction
    · rintro ⟨n, l, hl, -⟩
      contradiction
  | cons raw rest ih =>
    have hraw : IsLine raw (dropTrailing (· = '\r') raw) := isLine_iff.mpr rfl
    constructor
    · rintro ⟨r, h, hr⟩
      cases h with
      | silent hchars hline hrest =>
        obtain rfl := isLine_iff.mp hchars
        exact (ih.mp ⟨_, hrest, hr⟩).cons hline
      | token hchars hline hrest =>
        obtain rfl := isLine_iff.mp hchars
        exact (ih.mp ⟨_, hrest, hr⟩).cons hline
      | refused hchars hline =>
        obtain rfl := isLine_iff.mp hchars
        cases hr
        exact ⟨0, _, rfl, hline, fun m k hm => absurd hm (Nat.not_lt_zero m)⟩
    · rintro ⟨n, l, hl, hrefused, hfirst⟩
      cases n with
      | zero =>
        cases hl
        exact ⟨_, .refused hraw hrefused, rfl⟩
      | succ n =>
        obtain ⟨r, hrest, hr⟩ := ih.mpr ⟨n, l, hl, hrefused, fun m k hm hk =>
          hfirst (m + 1) k (Nat.succ_lt_succ hm) hk⟩
        obtain ⟨found, hline⟩ := hfirst 0 _ (Nat.succ_pos n) rfl
        cases found with
        | none => exact ⟨r, .silent hraw hline hrest, hr⟩
        | some t => exact ⟨_, .token hraw hline hrest, hr⟩

end FirstLine

/-- Reading a text ends at its first line that is refused. -/
theorem exists_describes_refused_iff {limit : Option Nat} {file source : String} {e : Refusal} :
    (∃ r, Describes limit file 1 source r ∧ r.refusal = some e) ↔
      ∃ n l, LineAt file source n l ∧ Reads limit l (.error e) ∧
        ∀ m k, m < n → LineAt file source m k → ∃ found, Reads limit k (.ok found) := by
  have hsource : ∀ {raws}, Divides raws source.toList →
      linesFrom file 1 raws = linesOf file 1 source := by
    intro raws hraws
    rw [linesOf_eq_linesFrom, divides_iff.mp hraws]
  simp only [lineAt_iff]
  constructor
  · rintro ⟨r, ⟨raws, hraws, hread⟩, hr⟩
    rw [← hsource hraws]
    exact exists_readsFrom_refused_iff.mp ⟨r, hread, hr⟩
  · have hraws : Divides (source.toList.splitOn '\n') source.toList := divides_iff.mpr rfl
    rw [← hsource hraws]
    intro hfirst
    obtain ⟨r, hread, hr⟩ := exists_readsFrom_refused_iff.mpr hfirst
    exact ⟨r, ⟨_, hraws, hread⟩, hr⟩

/-- A text is refused for its first line that is refused, or its tokens are. -/
theorem fails_iff {limit : Option Nat} {strict : Bool} {file source : String} {e : Refusal} :
    Fails limit strict file source e ↔
      (∃ r, Describes limit file 1 source r ∧ r.refusal = some e) ∨
      ∃ tokens symbols, Describes limit file 1 source ⟨tokens, none⟩ ∧
        Generates strict tokens (.error e) symbols := by
  rw [exists_describes_refused_iff]
  constructor
  · intro h
    cases h with
    | line hline hrefused hfirst => exact .inl ⟨_, _, hline, hrefused, hfirst⟩
    | duplicate hread hstrict hfirst => exact .inr ⟨_, _, hread, .duplicate hstrict hfirst⟩
    | instruction hread hstrict hsymbols hsplit hbefore hrefuses =>
      exact .inr ⟨_, _, hread, .refused hstrict hsymbols hsplit hbefore hrefuses⟩
  · rintro (⟨n, l, hline, hrefused, hfirst⟩ | ⟨tokens, symbols, hread, hgenerates⟩)
    · exact .line hline hrefused hfirst
    · cases hgenerates with
      | refused hstrict hsymbols hsplit hbefore hrefuses =>
        exact .instruction hread hstrict hsymbols hsplit hbefore hrefuses
      | duplicate hstrict hfirst => exact .duplicate hread hstrict hfirst

/-- A limit on digits does not matter to a text without an overlong line that is come to. -/
theorem fails_iff_unlimited {strict : Bool} {file source : String} {e : Refusal}
    (h : ¬ MeetsOverlong file 1 source) :
    Fails (some digitLimit) strict file source e ↔ Fails none strict file source e := by
  have hlimit : ∀ r, Describes (some digitLimit) file 1 source r ↔
      Describes none file 1 source r := by
    intro r
    rw [← Reading.ofSource_eq_iff, Reading.forall_ofSource_eq_iff.mpr h]
  simp only [fails_iff, hlimit]

namespace Assembler

/-- A text is refused for its cause. -/
theorem assemble_eq_error_iff {a : Assembler} {file source : String} {e : Refusal} :
    (a.assemble file source).2.outcome = .error e ↔
      Fails (some digitLimit) a.strict file source e := by
  rw [fails_iff]
  simp only [← Reading.ofSource_eq_iff]
  cases hreading : Reading.ofSource file 1 source with
  | mk tokens refusal =>
  cases refusal with
  | some cause =>
    rw [assemble_of_refused_line a hreading]
    constructor
    · intro h
      cases h
      exact .inl ⟨_, rfl, rfl⟩
    · rintro (⟨r, rfl, hr⟩ | ⟨tokens, symbols, hread, -⟩)
      · cases hr
        rfl
      · cases hread
  | none =>
    rw [assemble_of_reading a hreading]
    constructor
    · intro h
      have hgenerates := generates_generate a tokens
      rw [h] at hgenerates
      exact .inr ⟨tokens, _, rfl, hgenerates⟩
    · rintro (⟨r, rfl, hr⟩ | ⟨tokens, symbols, hread, hgenerates⟩)
      · contradiction
      · cases hread
        exact (generate_of_generates hgenerates).1

/-- A text is refused for a long numeral exactly when reading it comes to an overlong line. -/
theorem exists_longNumeral_iff {a : Assembler} {file source : String} :
    (∃ cause, (a.assemble file source).2.outcome = .error (.longNumeral cause)) ↔
      MeetsOverlong file 1 source := by
  constructor
  · rintro ⟨cause, h⟩
    by_contra hmeets
    rw [assemble_eq_error_iff, fails_iff_unlimited hmeets, fails_iff] at h
    rcases h with ⟨r, ⟨raws, -, hread⟩, hr⟩ | ⟨tokens, symbols, -, hgenerates⟩
    · exact hread.refusal_ne_longNumeral cause hr
    · cases hgenerates with
      | refused _ _ _ _ hrefuses => cases hrefuses
  · rintro ⟨raws, hraws, hreach⟩
    obtain ⟨cause, hcause⟩ := hreach.refusal
    refine ⟨cause, ?_⟩
    rw [assemble_eq_error_iff, fails_iff]
    refine .inl ⟨_, Reading.ofSource_eq_iff.mp rfl, ?_⟩
    rw [Reading.ofSource, linesOf_eq_linesFrom, divides_iff.mp hraws, hcause]

end Assembler

/-! ## Pointing at a line -/

section Pointing

variable {limit : Option Nat} {l : SourceLine} {e : Refusal} {t : Token}

/-- A diagnostic with the place and the text of a line points at the first character of its
statement. -/
theorem Diagnostic.pointsAt_of_layout {d : Diagnostic} {indent head rest comment : List Char}
    (hlayout : Layout l.chars indent head rest comment) (hlocation : d.location = some l.location)
    (hline : d.sourceLine = some l.text) : d.PointsAt l := by
  obtain ⟨c, more, rfl⟩ := List.exists_cons_of_ne_nil hlayout.head_ne_nil
  have hc : isBlank c = false := (hlayout.head_field c List.mem_cons_self).1
  have hchars : l.chars = indent ++ c :: (more ++ rest ++ comment) := by
    rw [hlayout.line]
    simp only [List.append_assoc, List.cons_append]
  have hcolumn : l.column = indent.length + 1 := by
    rw [SourceLine.column, hchars, takeWhile_append_of_head hlayout.indent_blank]
    intro d hd
    cases hd
    exact hc
  have hplace : l.location = ⟨l.file, l.number, indent.length + 1⟩ := by
    rw [SourceLine.location, hcolumn, Int.natCast_add]
    rfl
  have hcaret : ((indent.length : Int) + 1 - 1).toNat = indent.length := by omega
  rw [hplace] at hlocation
  have hreport : d.report = (SourceLocation.text ⟨l.file, l.number, indent.length + 1⟩ ++
      ": error: " ++ d.complaint.message) ::
        SourceLocation.excerpt ⟨l.file, l.number, indent.length + 1⟩ l.text reportIndent ++
          d.hintLines := by
    rw [Diagnostic.report, hlocation, hline]
  rw [SourceLocation.excerpt, hcaret] at hreport
  exact ⟨hline, indent, c, _, hchars, hlayout.indent_blank, hc, hlocation, _, _, hreport⟩

/-- A line that is refused is complained about, or its numeral is too long. -/
theorem Reads.pointsAt_of_error (h : Reads limit l (.error e)) :
    e.IsSyntax ∧ ((∃ d, e = .report d ∧ ¬ d.complaint.IsRemark ∧ d.PointsAt l) ∨
      ∃ cause, e = .longNumeral cause) := by
  cases h with
  | invalid _ hlayout _ =>
    exact ⟨trivial, .inl ⟨_, rfl, id, Diagnostic.pointsAt_of_layout hlayout rfl rfl⟩⟩
  | sentence hs hr =>
    cases hr with
    | longNumeral op _ _ => exact ⟨trivial, .inr ⟨_, rfl⟩⟩
    | badNumber op _ =>
      rcases hs.makes with ⟨hsilence, -⟩ | ⟨indent, head, rest, comment, hlayout, -⟩
      · contradiction
      · exact ⟨trivial, .inl ⟨_, rfl, id, Diagnostic.pointsAt_of_layout hlayout rfl rfl⟩⟩

/-- What is said about a token points at the line that it was read from. -/
theorem Reads.pointsAt_of_token (h : Reads limit l (.ok (some t))) {d : Diagnostic}
    (hd : d.IsAt t) : d.PointsAt l := by
  obtain ⟨hlocation, hline⟩ := hd
  cases h with
  | sentence hs hr =>
    have hplace : t.location = l.location ∧ t.sourceLine = l.text := by
      cases hr <;> exact ⟨rfl, rfl⟩
    rw [hplace.1] at hlocation
    rw [hplace.2] at hline
    rcases hs.makes with ⟨rfl, -⟩ | ⟨indent, head, rest, comment, hlayout, -⟩
    · cases hr
    · exact Diagnostic.pointsAt_of_layout hlayout hlocation hline

/-- A mailbox number that is read is not negative. -/
theorem Reads.nonneg_of_access {i : Located Instruction} {op : MailboxOp} {address : Int}
    (h : Reads limit l (.ok (some (.instruction i)))) (hi : i.value = .access op address) :
    0 ≤ address := by
  cases h with
  | sentence hs hr =>
    cases hr with
    | plain op => contradiction
    | branch op target => contradiction
    | access op _ _ _ =>
      cases hi
      exact Int.natCast_nonneg _

/-- An instruction that is refused, and not for a negative mailbox number, is complained about. -/
theorem Refuses.exists_isAt {tokens : List Token} {names : List String} {i : Located Instruction}
    (h : Refuses tokens names i e)
    (hnonneg : ∀ op address, i.value = .access op address → 0 ≤ address) :
    ∃ d, e = .report d ∧ ¬ d.complaint.IsRemark ∧ d.IsAt (.instruction i) := by
  cases h with
  | beyond hi hlt => exact ⟨_, rfl, id, rfl, rfl⟩
  | negative hi hlt => exact absurd (hnonneg _ _ hi) (Int.not_le.mpr hlt)
  | undefined hi hnone => exact ⟨_, rfl, id, rfl, rfl⟩
  | unreachable hi hbinds hlt => exact ⟨_, rfl, id, rfl, rfl⟩

end Pointing

/-- A cause is reported at a line of the text, unless it is a numeral that is too long. -/
theorem Fails.pointsAt {strict : Bool} {file source : String} {e : Refusal}
    (h : Fails (some digitLimit) strict file source e) :
    (∃ d n l, e = .report d ∧ ¬ d.complaint.IsRemark ∧ LineAt file source n l ∧ d.PointsAt l) ∨
      ∃ cause, e = .longNumeral cause := by
  have htoken : ∀ {tokens t}, Describes (some digitLimit) file 1 source ⟨tokens, none⟩ →
      t ∈ tokens → ∃ n l, LineAt file source n l ∧
        Reads (some digitLimit) l (.ok (some t)) := by
    intro tokens t hread ht
    have hmem : t ∈ (Reading.ofSource file 1 source).tokens := by
      rw [Reading.ofSource_eq_iff.mpr hread]
      exact ht
    obtain ⟨l, hl, hline⟩ := Reading.exists_line_of_mem hmem
    obtain ⟨n, hn⟩ := List.mem_iff_getElem?.mp hl
    exact ⟨n, l, lineAt_iff.mpr hn, SourceLine.token?_eq_iff_reads.mp hline⟩
  cases h with
  | @line n l e hline hrefused _ =>
    rcases hrefused.pointsAt_of_error.2 with ⟨d, rfl, hkind, hpoints⟩ | hlong
    · exact .inl ⟨d, n, l, rfl, hkind, hline, hpoints⟩
    · exact .inr hlong
  | @duplicate tokens earlier label m n hread _ hfirst =>
    obtain ⟨before, i, after, rfl, -⟩ := hfirst.2.1
    obtain ⟨n, l, hline, hreads⟩ := htoken (t := .label label) hread (by simp)
    exact .inl ⟨_, n, l, rfl, id, hline, hreads.pointsAt_of_token ⟨rfl, rfl⟩⟩
  | @instruction tokens symbols before after i e hread _ _ hsplit _ hrefuses =>
    have hmem : i ∈ instructionsOf tokens := by
      rw [hsplit]
      exact List.mem_append_right _ List.mem_cons_self
    obtain ⟨n, l, hline, hreads⟩ := htoken hread (mem_instructionsOf_iff.mp hmem)
    obtain ⟨d, rfl, hkind, hd⟩ := hrefuses.exists_isAt fun _ _ => hreads.nonneg_of_access
    exact .inl ⟨d, n, l, rfl, hkind, hline, hreads.pointsAt_of_token hd⟩

/-- A text is refused for the form of a line exactly when it has a line that is refused. -/
theorem exists_fails_syntax_iff {strict : Bool} {file source : String} :
    (∃ e, Fails (some digitLimit) strict file source e ∧ e.IsSyntax) ↔
      ∃ n l e, LineAt file source n l ∧ Reads (some digitLimit) l (.error e) := by
  constructor
  · rintro ⟨e, h, hsyntax⟩
    cases h with
    | line hline hrefused _ => exact ⟨_, _, _, hline, hrefused⟩
    | duplicate => exact hsyntax.elim
    | instruction _ _ _ _ _ hrefuses => cases hrefuses <;> exact hsyntax.elim
  · intro hexists
    classical
    obtain ⟨l, e, hline, hrefused⟩ := Nat.find_spec hexists
    refine ⟨e, .line hline hrefused fun m k hm hk => ?_, hrefused.pointsAt_of_error.1⟩
    obtain ⟨r, hr⟩ := exists_reads (some digitLimit) k
    cases r with
    | ok found => exact ⟨found, hr⟩
    | error e => exact absurd ⟨k, e, hk, hr⟩ (Nat.find_min hexists hm)

namespace Assembler

/-- A text that is not assembled is refused for exactly one cause, which comes first in the
order of the passes.  The cause is a complaint that points at the first character of a line of
the text, or else the numeral of the first refused line, which has more digits than are read.
The latter happens exactly when reading comes to an overlong line; otherwise the causes are
those of the language without a limit on digits. -/
theorem assemble_refusal (a : Assembler) (file source : String) :
    (∀ e, (a.assemble file source).2.outcome = .error e ↔
      Fails (some digitLimit) a.strict file source e) ∧
    (∀ e, (a.assemble file source).2.outcome = .error e →
      (∃ d n l, e = .report d ∧ ¬ d.complaint.IsRemark ∧ LineAt file source n l ∧
        d.PointsAt l) ∨
      ∃ cause, e = .longNumeral cause) ∧
    ((∃ e, (a.assemble file source).2.outcome = .error e ∧ e.IsSyntax) ↔
      ∃ n l e, LineAt file source n l ∧ Reads (some digitLimit) l (.error e)) ∧
    ((∃ cause, (a.assemble file source).2.outcome = .error (.longNumeral cause)) ↔
      MeetsOverlong file 1 source) ∧
    (¬ MeetsOverlong file 1 source → ∀ e, (a.assemble file source).2.outcome = .error e ↔
      Fails none a.strict file source e) := by
  refine ⟨fun e => assemble_eq_error_iff, fun e h => (assemble_eq_error_iff.mp h).pointsAt, ?_,
    exists_longNumeral_iff, fun hshort e => ?_⟩
  · simp only [assemble_eq_error_iff]
    exact exists_fails_syntax_iff
  · rw [assemble_eq_error_iff, fails_iff_unlimited hshort]

/-- A program whose label stands on two instructions. -/
def repeatedLabel : String :=
  ".A\nread\nprint\n\t.a ; again\nstop"

/-- With strict labels the second label is pointed at. -/
theorem assemble_refusal_repeatedLabel :
    ∃ d n l, ((new true).assemble "twice" repeatedLabel).2.outcome = .error (.report d) ∧
      d.location = some ⟨"twice", 4, 2⟩ ∧ LineAt "twice" repeatedLabel n l ∧ d.PointsAt l := by
  have hread : Reading.ofSource "twice" 1 repeatedLabel =
      ⟨[.label ⟨"a", ⟨"twice", 1, 1⟩, ".A"⟩,
        .instruction ⟨.plain .read none, ⟨"twice", 2, 1⟩, "read"⟩,
        .instruction ⟨.plain .print none, ⟨"twice", 3, 1⟩, "print"⟩,
        .label ⟨"a", ⟨"twice", 4, 2⟩, "\t.a ; again"⟩,
        .instruction ⟨.plain .stop none, ⟨"twice", 5, 1⟩, "stop"⟩], none⟩ := by
    decide +kernel
  have houtcome : ((new true).assemble "twice" repeatedLabel).2.outcome =
      .error (.report ⟨.duplicateLabel "a" (some ⟨"twice", 1, 1⟩), some ⟨"twice", 4, 2⟩,
        some "\t.a ; again", none⟩) := by
    rw [assemble_of_reading (new true) hread]
    rfl
  rcases (assemble_refusal (new true) "twice" repeatedLabel).2.1 _ houtcome with
    ⟨d, n, l, hd, -, hline, hpoints⟩ | ⟨cause, hcause⟩
  · obtain rfl := Refusal.report.inj hd
    exact ⟨_, n, l, houtcome, rfl, hline, hpoints⟩
  · contradiction

/-- A mailbox number of 4301 zeros is 0 in the language without a limit on digits, so that the
text has the word 100.  Nothing is reported about the text, and yet it is refused. -/
theorem assemble_overlong_zeros :
    (∃ tokens, Describes none "<input>" 1 (String.ofList (zerosLine 4300)) ⟨tokens, none⟩ ∧
      ((new false).generate tokens).2.outcome = .ok [100]) ∧
    ∃ e, ((new false).assemble "<input>" (String.ofList (zerosLine 4300))).2.outcome = .error e ∧
      ∀ d, e ≠ .report d := by
  obtain ⟨hdivides, hline⟩ := divides_zerosLine 4300
  have hunlimited : WithinLimit none (4300 + 1) := by
    intro most hmost
    exact absurd hmost (Option.not_mem_none most)
  refine ⟨⟨_, ⟨_, hdivides, .token hline (reads_zerosLine hunlimited _ _) (.done _)⟩, rfl⟩,
    .longNumeral ⟨4301⟩, ?_, fun d => Refusal.noConfusion⟩
  rw [assemble_of_refused_line (new false) (Reading.ofSource_zerosLine _)]

end Assembler

end Mailroom
