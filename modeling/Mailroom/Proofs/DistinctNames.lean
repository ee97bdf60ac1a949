import Mailroom.Proofs.BareImages

/-!
# Distinct names

A disassembler that knows the symbols of an assembler has a name for every number.  Symbols
are names in lower case with an address each, and made names begin with a capital letter, so
that no name is that of two numbers.

Main definitions:

- `Assembler.assembleAll` assembles texts one after another, whatever their outcomes.
- `Assembler.HoldsSymbols` says that an assembler has the symbols of a source text.

Main results:

- Theorem `Names.Lists.labelFor_injective`: different numbers have different names.
- Theorem `Assembler.holdsSymbols_assembleAll`: every assembler has the symbols of a source
  text, also after programs that are refused.
- Theorem `Assembler.distinct_names`: both together, and every symbol names its address.
-/

namespace Mailroom

open Text

/-! ## Names of numbers -/

namespace Names

variable {names : Names} {tokens : List Token} {symbols : List (String × Nat)}

/-- A number has its known name or a made one. -/
theorem labelFor_cases (names : Names) (a : Int) :
    names.find? a = some (names.labelFor a) ∨ names.labelFor a = "L" ++ twoDigits a := by
  unfold labelFor
  cases names.find? a with
  | none => exact .inr rfl
  | some x => exact .inl rfl

/-- A symbol of a source text is not a made name. -/
theorem ne_made_of_isSymbolList (h : IsSymbolList tokens symbols) (hreadable : Readable tokens)
    {x : String} {n : Nat} (hx : (x, n) ∈ symbols) (a : Int) : x ≠ "L" ++ twoDigits a := by
  rintro rfl
  have hfolded := (h.isName hreadable hx).2
  rw [foldedName_made] at hfolded
  exact lower_ne_made a a hfolded

/-- When the symbols of a source text are known, different numbers have different names. -/
theorem Lists.labelFor_injective (hnames : names.Lists symbols)
    (h : IsSymbolList tokens symbols) (hreadable : Readable tokens) :
    Function.Injective names.labelFor := by
  intro a b hab
  -- a known name is no made one, so both are known or both are made
  rcases labelFor_cases names a with ha | ha <;> rcases labelFor_cases names b with hb | hb
  · obtain ⟨m, rfl, hm⟩ := (hnames a _).mp ha
    obtain ⟨n, rfl, hn⟩ := (hnames b _).mp hb
    rw [hab] at hm
    rw [Binds.unique ((h.2 _ m).mp hm) ((h.2 _ n).mp hn)]
  · obtain ⟨m, -, hm⟩ := (hnames a _).mp ha
    exact absurd (hab.trans hb) (ne_made_of_isSymbolList h hreadable hm b)
  · obtain ⟨n, -, hn⟩ := (hnames b _).mp hb
    exact absurd (hab.symm.trans ha) (ne_made_of_isSymbolList h hreadable hn a)
  · exact made_injective (ha.symm.trans (hab.trans hb))

end Names

/-! ## The symbols of an assembler -/

/-- Without tokens there are no symbols. -/
theorem isSymbolList_nil : IsSymbolList [] [] := by
  refine ⟨.nil, fun x n => iff_of_false List.not_mem_nil ?_⟩
  rintro ⟨⟨label, hlabel, -⟩, -⟩
  exact not_heads_nil label n hlabel

/-- No tokens are readable. -/
theorem readable_nil : Readable [] :=
  ⟨fun _ h => absurd h List.not_mem_nil, fun _ h => absurd h List.not_mem_nil,
    fun _ _ _ h => absurd h List.not_mem_nil⟩

/-- The symbols that are left are those of the tokens, or there are none. -/
theorem Generates.isSymbolList_or_nil {strict : Bool} {tokens : List Token}
    {r : Except Refusal (List Int)} {symbols : List (String × Nat)}
    (h : Generates strict tokens r symbols) : IsSymbolList tokens symbols ∨ symbols = [] := by
  cases h with
  | words _ hsymbols _ => exact .inl hsymbols
  | refused _ hsymbols _ _ _ => exact .inl hsymbols
  | duplicate _ _ => exact .inr rfl

namespace Assembler

/-- The assembler that is left after assembling named texts one after another. -/
def assembleAll (a : Assembler) (texts : List (String × String)) : Assembler :=
  texts.foldl (fun left text => (left.assemble text.1 text.2).1) a

/-- The symbols of the last build are those of the tokens of a source text. -/
def HoldsSymbols (a : Assembler) : Prop :=
  ∃ tokens, Readable tokens ∧ IsSymbolList tokens a.build.symbols.indices

variable {a : Assembler}

/-- A new assembler has no symbols. -/
theorem holdsSymbols_new (strict : Bool) : (new strict).HoldsSymbols :=
  ⟨[], readable_nil, isSymbolList_nil⟩

/-- Readable tokens leave the symbols of a source text. -/
theorem holdsSymbols_generate (a : Assembler) {tokens : List Token}
    (hreadable : Readable tokens) : (a.generate tokens).1.HoldsSymbols := by
  rcases (generates_generate a tokens).isSymbolList_or_nil with hsymbols | hnone
  · exact ⟨tokens, hreadable, hsymbols⟩
  · exact ⟨[], readable_nil, hnone ▸ isSymbolList_nil⟩

/-- A text that is not read leaves the symbols as they are, and any other one leaves its
own. -/
theorem HoldsSymbols.assemble (h : a.HoldsSymbols) (file source : String) :
    (a.assemble file source).1.HoldsSymbols := by
  have hreadable := Reading.readable_ofSource file 1 source
  rcases hread : Reading.ofSource file 1 source with ⟨tokens, refusal⟩
  rw [hread] at hreadable
  cases refusal with
  | some e => rwa [assemble_of_refused_line a hread]
  | none =>
    rw [assemble_of_reading a hread]
    exact holdsSymbols_generate a hreadable

/-- An assembler has the symbols of a source text, whatever it has assembled. -/
theorem holdsSymbols_assembleAll (strict : Bool) (texts : List (String × String)) :
    ((new strict).assembleAll texts).HoldsSymbols := by
  have hall : ∀ a : Assembler, a.HoldsSymbols → (a.assembleAll texts).HoldsSymbols := by
    induction texts with
    | nil => exact fun a h => h
    | cons text rest ih => exact fun a h => ih _ (h.assemble text.1 text.2)
  exact hall _ (holdsSymbols_new strict)

/-- A disassembler that knows the symbols of an assembler has different names for different
numbers, and every symbol is the name of its address.  It does not matter which texts were
assembled before, how they ended, or in which order the symbols are added. -/
theorem distinct_names (strict : Bool) (texts : List (String × String))
    {listed : List (String × Nat)}
    (hlisted : listed.Perm ((new strict).assembleAll texts).build.symbols.indices) :
    let names := Names.addSymbols .empty (listed.map fun s => (s.1, (s.2 : Int)))
    (∀ a b : Int, a ≠ b → names.labelFor a ≠ names.labelFor b) ∧
      (∀ x n, (x, n) ∈ listed → names.labelFor n = x) ∧
      ∀ (a : Int) x, names.find? a = some x ↔ ∃ n : Nat, a = n ∧ (x, n) ∈ listed := by
  intro names
  obtain ⟨tokens, hreadable, hsymbols⟩ := holdsSymbols_assembleAll strict texts
  have hnames := Names.lists_addSymbols hsymbols hlisted
  refine ⟨fun a b => (hnames.labelFor_injective hsymbols hreadable).ne, ?_, ?_⟩
  · exact fun x n hx => hnames.labelFor_eq (hlisted.mem_iff.mp hx)
  · intro a x
    simp only [hlisted.mem_iff]
    exact hnames a x

/-- A text with a label that looks like a made name, and stands on two instructions, with
capital Greek letters, and with a branch to no label. -/
def refusedLabels : String :=
  ".l05\nread\n.ΟΣ\nread\n.L05\nb nowhere"

/-- The symbols that this text leaves, though it is refused, and a text after it that is not
read at all. -/
theorem distinct_names_refusedLabels :
    let texts := [("labels", refusedLabels), ("words", "no instruction")]
    [("ος", 1), ("l05", 2)].Perm ((new false).assembleAll texts).build.symbols.indices ∧
      let names := Names.addSymbols .empty
        ([("ος", 1), ("l05", 2)].map fun s => (s.1, ((s.2 : Nat) : Int)))
      (∀ a b : Int, a ≠ b → names.labelFor a ≠ names.labelFor b) ∧
        (∀ x n, (x, n) ∈ [("ος", 1), ("l05", 2)] → names.labelFor (n : Nat) = x) ∧
        ∀ (a : Int) x, names.find? a = some x ↔
          ∃ n : Nat, a = n ∧ (x, n) ∈ [("ος", 1), ("l05", 2)] := by
  intro texts
  have hlisted : [("ος", 1), ("l05", 2)].Perm
      ((new false).assembleAll texts).build.symbols.indices := by
    decide +kernel
  exact ⟨hlisted, distinct_names false texts hlisted⟩

end Assembler

end Mailroom
