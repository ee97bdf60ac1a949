import Mailroom.Assembly.SourceLine
import Mathlib.Data.List.TakeWhile
import Mathlib.Data.List.DropRight

/-!
# Fields of a source line

How a line falls apart into indentation, first field, operands and comment, told by what
the parts are made of and not by how they are cut out.

Main definitions:

- `Blanks`, `Separators`, `Trimmed` and `Comment` describe the parts of a line.
- `Layout` puts a line together from its parts.

Main results:

- Theorem `Text.trim_eq_iff` characterizes trimming.
- Theorems `operandsOf_eq_nil_iff` and `operandsOf_eq_singleton_iff` say which texts hold
  no operand and which hold exactly one.
- Theorem `blank_or_layout`: a line is blank up to its comment, or it has a layout.
- Theorem `Layout.fields` gives the fields that are read from a layout.
-/

namespace Mailroom

namespace Text

/-! ## Classes of texts -/

/-- A text made of blanks. -/
def Blanks (cs : List Char) : Prop :=
  ∀ c ∈ cs, isBlank c = true

/-- A text made of blanks and commas. -/
def Separators (cs : List Char) : Prop :=
  ∀ c ∈ cs, isBlank c = true ∨ c = ','

/-- A text without blanks at its ends. -/
def Trimmed (cs : List Char) : Prop :=
  (∀ c ∈ cs.head?, isBlank c = false) ∧ ∀ c ∈ cs.getLast?, isBlank c = false

/-- A comment, or nothing. -/
def Comment (cs : List Char) : Prop :=
  ∀ c ∈ cs.head?, c = ';'

/-- A blank is neither a comma nor a semicolon. -/
theorem ne_of_isBlank {c : Char} (h : isBlank c = true) : c ≠ ',' ∧ c ≠ ';' := by
  constructor
  · intro hc
    rw [hc] at h
    exact absurd h (by decide)
  · intro hc
    rw [hc] at h
    exact absurd h (by decide)

/-- Blanks after blanks. -/
theorem Blanks.append {first second : List Char} (hfirst : Blanks first)
    (hsecond : Blanks second) : Blanks (first ++ second) := by
  intro c hc
  rcases List.mem_append.mp hc with hc | hc
  · exact hfirst c hc
  · exact hsecond c hc

/-- Blanks separate. -/
theorem Blanks.separators {cs : List Char} (h : Blanks cs) : Separators cs :=
  fun c hc => .inl (h c hc)

/-- Separators without a comma are blanks. -/
theorem Separators.blanks {cs : List Char} (h : Separators cs) (hcomma : ',' ∉ cs) :
    Blanks cs := by
  intro c hc
  rcases h c hc with hblank | rfl
  · exact hblank
  · exact absurd hc hcomma

/-- Two texts around a comma separate when both do. -/
theorem separators_append_comma_iff {first second : List Char} :
    Separators (first ++ ',' :: second) ↔ Separators first ∧ Separators second := by
  constructor
  · intro h
    constructor
    · exact fun c hc => h c (List.mem_append_left _ hc)
    · exact fun c hc => h c (List.mem_append_right _ (List.mem_cons_of_mem _ hc))
  · rintro ⟨hfirst, hsecond⟩ c hc
    rcases List.mem_append.mp hc with hc | hc
    · exact hfirst c hc
    · rcases List.mem_cons.mp hc with rfl | hc
      · exact .inr rfl
      · exact hsecond c hc

/-! ## Cutting -/

/-- A run of one class ends where the class does. -/
theorem takeWhile_append_of_head {α : Type} {p : α → Bool} {run rest : List α}
    (hrun : ∀ c ∈ run, p c = true) (hrest : ∀ c ∈ rest.head?, p c = false) :
    (run ++ rest).takeWhile p = run := by
  rw [List.takeWhile_append_of_pos hrun]
  cases rest with
  | nil => simp
  | cons c after => simp [hrest c rfl]

/-- What follows a run of one class is left when the run is dropped. -/
theorem dropWhile_append_of_head {α : Type} {p : α → Bool} {run rest : List α}
    (hrun : ∀ c ∈ run, p c = true) (hrest : ∀ c ∈ rest.head?, p c = false) :
    (run ++ rest).dropWhile p = rest := by
  rw [List.dropWhile_append_of_pos hrun]
  cases rest with
  | nil => rfl
  | cons c after => simp [hrest c rfl]

/-- The text left by dropping a class begins outside it. -/
theorem head?_dropWhile {p : Char → Bool} {cs : List Char} :
    ∀ c ∈ (cs.dropWhile p).head?, p c = false := by
  intro c hc
  have hstop := List.head?_dropWhile_not p cs
  rw [Option.mem_def] at hc
  rwa [hc] at hstop

/-- A text begins with a run of a class, and what follows begins outside it. -/
theorem exists_span (p : Char → Bool) (cs : List Char) :
    ∃ run rest, cs = run ++ rest ∧ (∀ c ∈ run, p c = true) ∧
      ∀ c ∈ rest.head?, p c = false :=
  ⟨cs.takeWhile p, cs.dropWhile p, List.takeWhile_append_dropWhile.symm,
    fun _ hc => List.mem_takeWhile_imp hc, head?_dropWhile⟩

/-- Cutting a class off the end leaves the text before its longest end in the class. -/
theorem dropTrailing_eq_iff {p : Char → Bool} {cs kept : List Char} :
    dropTrailing p cs = kept ↔
      (∃ tail, (∀ c ∈ tail, p c = true) ∧ cs = kept ++ tail) ∧
        ∀ c ∈ kept.getLast?, p c = false := by
  constructor
  · rintro rfl
    constructor
    · refine ⟨(cs.reverse.takeWhile p).reverse, ?_, ?_⟩
      · intro c hc
        exact List.mem_takeWhile_imp (List.mem_reverse.mp hc)
      · rw [dropTrailing, ← List.reverse_append, List.takeWhile_append_dropWhile,
          List.reverse_reverse]
    · intro c hc
      rw [dropTrailing, List.getLast?_reverse] at hc
      exact head?_dropWhile c hc
  · rintro ⟨⟨tail, htail, rfl⟩, hkept⟩
    have htail' : ∀ c ∈ tail.reverse, p c = true := fun c hc =>
      htail c (List.mem_reverse.mp hc)
    have hkept' : ∀ c ∈ kept.reverse.head?, p c = false := by
      rw [List.head?_reverse]
      exact hkept
    rw [dropTrailing, List.reverse_append, dropWhile_append_of_head htail' hkept',
      List.reverse_reverse]

/-- What is cut off the end is in the class, and what is left does not end in it. -/
theorem exists_dropTrailing (p : Char → Bool) (cs : List Char) :
    (∃ tail, (∀ c ∈ tail, p c = true) ∧ cs = dropTrailing p cs ++ tail) ∧
      ∀ c ∈ (dropTrailing p cs).getLast?, p c = false :=
  dropTrailing_eq_iff.mp rfl

/-- Trimming leaves the text without blanks at its ends that stands between blanks. -/
theorem trim_eq_iff {cs kept : List Char} :
    trim cs = kept ↔
      Trimmed kept ∧ ∃ left right, Blanks left ∧ Blanks right ∧ cs = left ++ kept ++ right := by
  constructor
  · intro h
    rcases dropTrailing_eq_iff.mp h with ⟨⟨right, hright, hcs⟩, hlast⟩
    have hleft : Blanks (cs.takeWhile isBlank) := fun c hc => List.mem_takeWhile_imp hc
    have hhead : ∀ c ∈ kept.head?, isBlank c = false := by
      have hstart : ∀ c ∈ (cs.dropWhile isBlank).head?, isBlank c = false := head?_dropWhile
      intro c hc
      apply hstart
      rw [hcs, List.head?_append, Option.mem_def.mp hc]
      rfl
    refine ⟨⟨hhead, hlast⟩, cs.takeWhile isBlank, right, hleft, hright, ?_⟩
    rw [List.append_assoc, ← hcs, List.takeWhile_append_dropWhile]
  · rintro ⟨⟨hhead, hlast⟩, left, right, hleft, hright, rfl⟩
    rw [List.append_assoc, trim, List.dropWhile_append_of_pos hleft]
    by_cases hkept : kept = []
    · subst hkept
      rw [List.nil_append, List.dropWhile_eq_nil_iff.mpr hright]
      rfl
    · have hhead' : ∀ c ∈ (kept ++ right).head?, isBlank c = false := by
        rw [List.head?_append_of_ne_nil _ hkept]
        exact hhead
      have hdrop : (kept ++ right).dropWhile isBlank = kept ++ right :=
        dropWhile_append_of_head (List.forall_mem_nil _) hhead'
      rw [hdrop]
      exact dropTrailing_eq_iff.mpr ⟨⟨right, hright, rfl⟩, hlast⟩

/-- Blanks around a text are trimmed. -/
theorem trim_pad {left right : List Char} (hleft : Blanks left) (hright : Blanks right)
    (cs : List Char) : trim (left ++ cs ++ right) = trim cs := by
  rcases trim_eq_iff.mp (rfl : trim cs = trim cs) with ⟨htrimmed, b, e, hb, he, hcs⟩
  refine trim_eq_iff.mpr
    ⟨htrimmed, left ++ b, e ++ right, hleft.append hb, he.append hright, ?_⟩
  calc
    left ++ cs ++ right = left ++ (b ++ trim cs ++ e) ++ right := by rw [← hcs]
    _ = left ++ b ++ trim cs ++ (e ++ right) := by simp only [List.append_assoc]

/-- Nothing is left of blanks only. -/
theorem trim_eq_nil_iff {cs : List Char} : trim cs = [] ↔ Blanks cs := by
  rw [trim_eq_iff]
  constructor
  · rintro ⟨_, left, right, hleft, hright, rfl⟩
    rw [List.append_nil]
    exact hleft.append hright
  · intro h
    exact ⟨⟨by simp, by simp⟩, cs, [], h, by simp [Blanks], by simp⟩

/-- A text without blanks at its ends is not changed by trimming. -/
theorem trim_of_trimmed {cs : List Char} (h : Trimmed cs) : trim cs = cs :=
  trim_eq_iff.mpr ⟨h, [], [], by simp [Blanks], by simp [Blanks], by simp⟩

end Text

open Text

/-! ## Operands -/

/-- An operand is a text without commas, and without blanks at its ends. -/
structure IsOperand (cs : List Char) : Prop where
  ne_nil : cs ≠ []
  no_comma : ',' ∉ cs
  trimmed : Trimmed cs

/-- A text is read comma by comma. -/
theorem comma_induction {P : List Char → Prop} (last : ∀ cs, ',' ∉ cs → P cs)
    (comma : ∀ part rest, ',' ∉ part → P rest → P (part ++ ',' :: rest)) (cs : List Char) :
    P cs := by
  induction hn : cs.length using Nat.strong_induction_on generalizing cs with
  | _ n ih =>
    by_cases hmem : ',' ∈ cs
    · rcases List.eq_append_cons_of_mem hmem with ⟨part, rest, rfl, hpart⟩
      apply comma part rest hpart
      apply ih rest.length _ rest rfl
      rw [← hn, List.length_append, List.length_cons]
      omega
    · exact last cs hmem

/-- A text without commas holds at most one operand. -/
theorem operandsOf_of_not_mem {cs : List Char} (h : ',' ∉ cs) :
    operandsOf cs = [trim cs].filter (· ≠ []) := by
  rw [operandsOf, List.splitOn_eq_singleton h, List.map_singleton]

/-- The operands before and after a comma. -/
theorem operandsOf_append_comma (first second : List Char) :
    operandsOf (first ++ ',' :: second) = operandsOf first ++ operandsOf second := by
  rw [operandsOf, List.splitOn_append_cons_self, List.map_append, List.filter_append]
  rfl

/-- Blanks around a text do not count as operands. -/
theorem operandsOf_pad {left right : List Char} (hleft : Blanks left) (hright : Blanks right)
    (cs : List Char) : operandsOf (left ++ cs ++ right) = operandsOf cs := by
  have hfree : ∀ {part : List Char}, Blanks part → ',' ∉ part := fun hpart hmem =>
    (ne_of_isBlank (hpart _ hmem)).1 rfl
  have hwithout : ∀ {b e part : List Char}, Blanks b → Blanks e → ',' ∉ part →
      operandsOf (b ++ part ++ e) = operandsOf part := by
    intro b e part hb he hpart
    have hnone : ',' ∉ b ++ part ++ e := by
      simp only [List.mem_append, not_or]
      exact ⟨⟨hfree hb, hpart⟩, hfree he⟩
    rw [operandsOf_of_not_mem hnone, operandsOf_of_not_mem hpart, trim_pad hb he]
  have hnil : Blanks [] := List.forall_mem_nil _
  induction cs using comma_induction generalizing left with
  | last cs hcs => exact hwithout hleft hright hcs
  | comma part rest hpart ih =>
    have hsplit : left ++ (part ++ ',' :: rest) ++ right =
        left ++ part ++ [] ++ ',' :: ([] ++ rest ++ right) := by simp
    rw [hsplit, operandsOf_append_comma, operandsOf_append_comma, hwithout hleft hnil hpart,
      ih hnil]

/-- A text without commas holds no operand when it is blank. -/
theorem operandsOf_eq_nil_iff_of_not_mem {cs : List Char} (h : ',' ∉ cs) :
    operandsOf cs = [] ↔ Separators cs := by
  have hblanks : Separators cs ↔ Blanks cs := ⟨fun hcs => hcs.blanks h, Blanks.separators⟩
  rw [operandsOf_of_not_mem h, hblanks, ← trim_eq_nil_iff]
  simp

/-- A text holds no operand when it separates. -/
theorem operandsOf_eq_nil_iff {cs : List Char} : operandsOf cs = [] ↔ Separators cs := by
  induction cs using comma_induction with
  | last cs hcs => exact operandsOf_eq_nil_iff_of_not_mem hcs
  | comma part rest hpart ih =>
    rw [operandsOf_append_comma, List.append_eq_nil_iff, separators_append_comma_iff,
      operandsOf_eq_nil_iff_of_not_mem hpart, ih]

/-- Separators around a text do not count as operands. -/
theorem operandsOf_separated {left right : List Char} (hleft : Separators left)
    (hright : Separators right) (cs : List Char) :
    operandsOf (left ++ cs ++ right) = operandsOf cs := by
  have hnil : Blanks [] := List.forall_mem_nil _
  have hbefore : operandsOf (left ++ (cs ++ right)) = operandsOf (cs ++ right) := by
    induction left using comma_induction with
    | last left hcomma =>
      have hpad := operandsOf_pad (hleft.blanks hcomma) hnil (cs ++ right)
      rwa [List.append_nil] at hpad
    | comma part rest _ ih =>
      rcases separators_append_comma_iff.mp hleft with ⟨hpart, hrest⟩
      rw [List.append_assoc, List.cons_append, operandsOf_append_comma,
        operandsOf_eq_nil_iff.mpr hpart, List.nil_append, ih hrest]
  have hafter : operandsOf (cs ++ right) = operandsOf cs := by
    induction right using comma_induction with
    | last right hcomma => exact operandsOf_pad hnil (hright.blanks hcomma) cs
    | comma part rest hcomma _ =>
      rcases separators_append_comma_iff.mp hright with ⟨hpart, hrest⟩
      have hpad := operandsOf_pad hnil (hpart.blanks hcomma) cs
      rw [List.nil_append] at hpad
      rw [← List.append_assoc, operandsOf_append_comma, operandsOf_eq_nil_iff.mpr hrest,
        List.append_nil, hpad]
  rw [List.append_assoc, hbefore, hafter]

/-- An operand alone is read as such. -/
theorem operandsOf_of_isOperand {operand : List Char} (h : IsOperand operand) :
    operandsOf operand = [operand] := by
  rw [operandsOf_of_not_mem h.no_comma, trim_of_trimmed h.trimmed]
  simp [h.ne_nil]

/-- The operand of a text without commas stands between blanks. -/
theorem exists_of_operandsOf_eq_singleton {cs operand : List Char} (hcs : ',' ∉ cs)
    (h : operandsOf cs = [operand]) :
    IsOperand operand ∧ ∃ left right, Blanks left ∧ Blanks right ∧
      cs = left ++ operand ++ right := by
  rw [operandsOf_of_not_mem hcs] at h
  by_cases hnone : trim cs = []
  · simp [hnone] at h
  · have htrim : trim cs = operand := by simpa [hnone] using h
    rcases trim_eq_iff.mp htrim with ⟨htrimmed, left, right, hleft, hright, heq⟩
    have hcomma : ',' ∉ operand := by
      intro hmem
      apply hcs
      rw [heq]
      exact List.mem_append_left _ (List.mem_append_right _ hmem)
    have hne : operand ≠ [] := by
      rw [← htrim]
      exact hnone
    exact ⟨⟨hne, hcomma, htrimmed⟩, left, right, hleft, hright, heq⟩

/-- A text holds exactly one operand when the operand stands between separators. -/
theorem operandsOf_eq_singleton_iff {cs operand : List Char} :
    operandsOf cs = [operand] ↔
      IsOperand operand ∧ ∃ left right, Separators left ∧ Separators right ∧
        cs = left ++ operand ++ right := by
  constructor
  · intro h
    induction cs using comma_induction with
    | last cs hcs =>
      rcases exists_of_operandsOf_eq_singleton hcs h with
        ⟨hoperand, left, right, hleft, hright, heq⟩
      exact ⟨hoperand, left, right, hleft.separators, hright.separators, heq⟩
    | comma part rest hpart ih =>
      rw [operandsOf_append_comma, List.append_eq_singleton_iff] at h
      rcases h with ⟨hnone, hone⟩ | ⟨hone, hnone⟩
      · rcases ih hone with ⟨hoperand, left, right, hleft, hright, heq⟩
        have hleft' : Separators (part ++ ',' :: left) :=
          separators_append_comma_iff.mpr ⟨operandsOf_eq_nil_iff.mp hnone, hleft⟩
        exact ⟨hoperand, part ++ ',' :: left, right, hleft', hright, by simp [heq]⟩
      · rcases exists_of_operandsOf_eq_singleton hpart hone with
          ⟨hoperand, left, right, hleft, hright, heq⟩
        have hright' : Separators (right ++ ',' :: rest) :=
          separators_append_comma_iff.mpr ⟨hright.separators, operandsOf_eq_nil_iff.mp hnone⟩
        exact ⟨hoperand, left, right ++ ',' :: rest, hleft.separators, hright', by simp [heq]⟩
  · rintro ⟨hoperand, left, right, hleft, hright, rfl⟩
    rw [operandsOf_separated hleft hright, operandsOf_of_isOperand hoperand]

/-! ## Layouts -/

/-- A line with a statement: indentation, the first field, the rest of the statement and
a comment. -/
structure Layout (cs indent head rest comment : List Char) : Prop where
  line : cs = indent ++ head ++ rest ++ comment
  indent_blank : Blanks indent
  head_ne_nil : head ≠ []
  head_field : ∀ c ∈ head, isBlank c = false ∧ c ≠ ';'
  rest_apart : ∀ c ∈ rest.head?, isBlank c = true
  rest_code : ';' ∉ rest
  comment : Comment comment

/-- The part of a line before its comment. -/
theorem takeWhile_code {code comment : List Char} (hcode : ';' ∉ code)
    (hcomment : Comment comment) : (code ++ comment).takeWhile (· ≠ ';') = code := by
  apply takeWhile_append_of_head
  · intro c hc
    exact decide_eq_true (fun heq => hcode (heq ▸ hc))
  · intro c hc
    rw [hcomment c hc]
    rfl

/-- A line is blank up to its comment, or it has a layout. -/
theorem blank_or_layout (cs : List Char) :
    (∃ indent comment, Blanks indent ∧ Comment comment ∧ cs = indent ++ comment) ∨
      ∃ indent head rest comment, Layout cs indent head rest comment := by
  -- cut off the comment, then the indentation, then the first field
  rcases exists_span (· ≠ ';') cs with ⟨code, comment, rfl, hcode, hcomment⟩
  rcases exists_span isBlank code with ⟨indent, body, rfl, hindent, hstart⟩
  have hcomment : Comment comment := fun c hc => by simpa using hcomment c hc
  by_cases hnone : body = []
  · left
    subst hnone
    exact ⟨indent, comment, hindent, hcomment, by rw [List.append_nil]⟩
  · right
    rcases exists_span (!isBlank ·) body with ⟨head, rest, rfl, hhead, hrest⟩
    have hapart : ∀ c ∈ rest.head?, isBlank c = true := fun c hc => by
      simpa using hrest c hc
    have hne : head ≠ [] := by
      rintro rfl
      rcases List.exists_cons_of_ne_nil hnone with ⟨c, after, hc⟩
      have hblank : isBlank c = true := hapart c (by rw [← List.nil_append rest, hc]; rfl)
      rw [hstart c (by rw [hc]; rfl)] at hblank
      exact absurd hblank (by decide)
    have hfield : ∀ c ∈ head, isBlank c = false ∧ c ≠ ';' := by
      intro c hc
      have hcode' := hcode c (by simp [hc])
      exact ⟨by simpa using hhead c hc, by simpa using hcode'⟩
    have hfree : ';' ∉ rest := by
      intro hmem
      have hcode' := hcode ';' (by simp [hmem])
      exact absurd hcode' (by decide)
    exact ⟨indent, head, rest, comment,
      ⟨by simp only [List.append_assoc], hindent, hne, hfield, hapart, hfree, hcomment⟩⟩

namespace SourceLine

/-- A line that is blank up to its comment has no statement. -/
theorem statement_of_blank {l : SourceLine} {indent comment : List Char}
    (hindent : Blanks indent) (hcomment : Comment comment)
    (hl : l.chars = indent ++ comment) : l.statement = [] := by
  have hcode : ';' ∉ indent := fun hmem => (ne_of_isBlank (hindent _ hmem)).2 rfl
  rw [statement, hl, takeWhile_code hcode hcomment]
  exact trim_eq_nil_iff.mpr hindent

end SourceLine

namespace Layout

variable {l : SourceLine} {indent head rest comment : List Char}

/-- The statement of a line begins with its first field. -/
theorem statement (h : Layout l.chars indent head rest comment) :
    l.statement = head ++ dropTrailing isBlank rest := by
  have hcode : ';' ∉ indent ++ head ++ rest := by
    simp only [List.mem_append, not_or]
    refine ⟨⟨?_, ?_⟩, h.rest_code⟩
    · exact fun hmem => (ne_of_isBlank (h.indent_blank _ hmem)).2 rfl
    · exact fun hmem => (h.head_field _ hmem).2 rfl
  rcases exists_dropTrailing isBlank rest with ⟨⟨tail, htail, hrest⟩, hlast⟩
  rw [SourceLine.statement, h.line, takeWhile_code hcode h.comment, trim_eq_iff]
  refine ⟨⟨?_, ?_⟩, indent, tail, h.indent_blank, htail, ?_⟩
  · rw [List.head?_append_of_ne_nil _ h.head_ne_nil]
    exact fun c hc => (h.head_field c (List.mem_of_mem_head? hc)).1
  · intro c hc
    rw [List.getLast?_append] at hc
    cases hkept : (dropTrailing isBlank rest).getLast? with
    | none =>
      rw [hkept] at hc
      exact (h.head_field c (List.mem_of_getLast? hc)).1
    | some d =>
      rw [hkept] at hc
      exact hlast c (hkept ▸ hc)
  · calc
      indent ++ head ++ rest = indent ++ head ++ (dropTrailing isBlank rest ++ tail) := by
        rw [← hrest]
      _ = indent ++ (head ++ dropTrailing isBlank rest) ++ tail := by
        simp only [List.append_assoc]

/-- A line with a layout has a statement. -/
theorem statement_ne_nil (h : Layout l.chars indent head rest comment) : l.statement ≠ [] := by
  rw [h.statement]
  exact List.append_ne_nil_of_left_ne_nil h.head_ne_nil _

/-- The fields of a statement are read off the layout of its line. -/
theorem fields (h : Layout l.chars indent head rest comment) :
    Fields.ofStatement l.statement = ⟨lower head, operandsOf rest⟩ := by
  rcases exists_dropTrailing isBlank rest with ⟨⟨tail, htail, hrest⟩, -⟩
  have hhead : ∀ c ∈ head, (!isBlank c) = true := by
    intro c hc
    rw [(h.head_field c hc).1]
    rfl
  have hapart : ∀ c ∈ (dropTrailing isBlank rest).head?, (!isBlank c) = false := by
    intro c hc
    have hblank : isBlank c = true := by
      apply h.rest_apart
      rw [hrest, List.head?_append, Option.mem_def.mp hc]
      rfl
    rw [hblank]
    rfl
  have hoperands : operandsOf rest = operandsOf (dropTrailing isBlank rest) := by
    have hpad := operandsOf_pad (List.forall_mem_nil _) htail (dropTrailing isBlank rest)
    rwa [List.nil_append, ← hrest] at hpad
  rw [h.statement, Fields.ofStatement, takeWhile_append_of_head hhead hapart,
    dropWhile_append_of_head hhead hapart, hoperands]

end Layout

end Mailroom
