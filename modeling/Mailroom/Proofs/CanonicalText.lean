import Mailroom.Proofs.SameStatements

/-!
# Canonical texts

The statements of a source text, each on a line of its own and written in one way, are a source
text again.  It says the same: what is lost are comments, blanks and the places of tokens.

Main definitions:

- `canonicalText` writes the statements of tokens on lines of their own.
- `AssembledAlike` says that two texts have the same words and symbols, or the same complaint.

Main results:

- Theorem `Reading.ofSource_canonicalText`: a canonical text is read as the statements that are
  written in it, and assembled like the text that these were read from.
-/

namespace Mailroom

open Text

/-- The statements of tokens, each on a line of its own. -/
def canonicalText (tokens : List Token) : String :=
  "\n".intercalate ((tokens.map Token.statement).map Statement.text)

/-- Every assembler gives the same words and symbols for two texts, or refuses both for the same
reason. -/
def AssembledAlike (file source other text : String) : Prop :=
  ∀ a : Assembler,
    (a.assemble other text).2.outcome.mapError Refusal.placeless =
        (a.assemble file source).2.outcome.mapError Refusal.placeless ∧
      (a.assemble other text).1.build.symbols.indices =
        (a.assemble file source).1.build.symbols.indices

/-! ## Statements on lines -/

namespace Statement

/-- A statement on a line is the statement of its token. -/
@[simp] theorem statement_onLine (file : String) (number : Int) (s : Statement) :
    (s.onLine file number).statement = s := by
  cases s <;> rfl

/-- A statement on a line stands in the first column. -/
@[simp] theorem location_onLine (file : String) (number : Int) (s : Statement) :
    (s.onLine file number).location = ⟨file, number, 1⟩ := by
  cases s <;> rfl

/-- Statements on lines are the statements of their tokens. -/
theorem map_statement_onLines (file : String) (number : Int) (statements : List Statement) :
    (onLines file number statements).map Token.statement = statements := by
  induction statements generalizing number with
  | nil => rfl
  | cons s rest ih => rw [onLines, List.map_cons, statement_onLine, ih]

/-- The lines of statements have ascending numbers. -/
theorem location_of_onLines {file : String} {number : Int} {statements : List Statement}
    {k : Nat} {t : Token} (h : (onLines file number statements)[k]? = some t) :
    t.location = ⟨file, number + k, 1⟩ := by
  induction statements generalizing number k with
  | nil => contradiction
  | cons s rest ih =>
    cases k with
    | zero =>
      obtain rfl := Option.some.inj h
      rw [location_onLine, Int.natCast_zero, Int.add_zero]
    | succ k =>
      have hnumber : number + ((k + 1 : Nat) : Int) = number + 1 + k := by omega
      rw [hnumber]
      exact ih h

end Statement

/-! ## Reading canonical texts -/

variable {tokens : List Token}

/-- The canonical text of a source text is read as the same statements, one on each line from the
first column on, and it is its own canonical text.  It is assembled to the same words and
symbols, or it is refused for the same reason. -/
theorem Reading.ofSource_canonicalText {file source : String}
    (h : ofSource file 1 source = ⟨tokens, none⟩) (other : String) :
    ∃ again, ofSource other 1 (canonicalText tokens) = ⟨again, none⟩ ∧
      again.map Token.statement = tokens.map Token.statement ∧
      (∀ (k : Nat) t, again[k]? = some t → t.location = ⟨other, 1 + k, 1⟩) ∧
      canonicalText again = canonicalText tokens ∧
      AssembledAlike file source other (canonicalText tokens) := by
  have hsayable : ∀ s ∈ tokens.map Token.statement, s.Sayable := by
    intro s hs
    obtain ⟨t, ht, rfl⟩ := List.mem_map.mp hs
    have hmem : t ∈ (ofSource file 1 source).tokens := by
      rw [h]
      exact ht
    exact sayable_ofSource hmem
  have hread : ofSource other 1 (canonicalText tokens) = _ := ofSource_texts other 1 hsayable
  have hsame := Statement.map_statement_onLines other 1 (tokens.map Token.statement)
  refine ⟨_, hread, hsame, fun k t => Statement.location_of_onLines, ?_, fun a => ?_⟩
  · rw [canonicalText, hsame, canonicalText]
  · rw [a.outcome_of_reading hread, a.left_of_reading hread, a.outcome_of_reading h,
      a.left_of_reading h]
    exact a.generate_of_statements hsame

/-- A text with indented lines and a comment, a label with a comma and another period in it, a
number with a sign and leading zeros, a branch to an operand with blanks in it, and a capital
sigma in two forms. -/
def looseText : String :=
  "  ..A,b ; label\n add +007\n\n\tBZ  ΟΣ  x ,\n.ΟΣ\nread"

/-- The tokens of this text. -/
def looseTokens : List Token :=
  [.label ⟨".a,b", ⟨"loose", 1, 3⟩, "  ..A,b ; label"⟩,
    .instruction ⟨.access .add 7, ⟨"loose", 2, 2⟩, " add +007"⟩,
    .instruction ⟨.branch .ifZero "ΟΣ  x", ⟨"loose", 4, 2⟩, "\tBZ  ΟΣ  x ,"⟩,
    .label ⟨"ος", ⟨"loose", 5, 1⟩, ".ΟΣ"⟩,
    .instruction ⟨.plain .read none, ⟨"loose", 6, 1⟩, "read"⟩]

/-- The canonical text of this text, which is refused for its undefined label. -/
theorem Reading.ofSource_canonicalText_loose :
    ofSource "loose" 1 looseText = ⟨looseTokens, none⟩ ∧
      canonicalText looseTokens = "..a,b\nadd 7\nbz ΟΣ  x\n.ος\nread" ∧
      ∃ again, ofSource "again" 1 (canonicalText looseTokens) = ⟨again, none⟩ ∧
        again.map Token.statement = looseTokens.map Token.statement ∧
        (∀ (k : Nat) t, again[k]? = some t → t.location = ⟨"again", 1 + k, 1⟩) ∧
        canonicalText again = canonicalText looseTokens ∧
        AssembledAlike "loose" looseText "again" (canonicalText looseTokens) := by
  have hread : ofSource "loose" 1 looseText = ⟨looseTokens, none⟩ := by decide +kernel
  exact ⟨hread, by decide +kernel, ofSource_canonicalText hread "again"⟩

end Mailroom
