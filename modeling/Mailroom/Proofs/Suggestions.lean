import Mailroom.Proofs.CloseMatches
import Mailroom.Proofs.Generation

/-!
# Suggestions for undefined labels

When a branch names a label that stands on no instruction, similar labels are suggested.
The suggestions depend on the name and on which labels there are, and on nothing else: how
often and where a label stands, and in what order labels are compared with the name, makes
no difference.

Main definitions:

- `IsBound` says that a label stands on an instruction.
- `boundNames` lists these labels in the order in which they are first bound.
- `FailsOn` says that generation fails on an undefined label.

Main results:

- Theorem `mem_boundNames_iff`: binding slot by slot binds the labels on instructions.
- Theorem `Assembler.suggestions_in_any_order`: the suggestions for an undefined label are
  the best of the labels on instructions.
-/

namespace Mailroom

open Text

/-! ## Labels on instructions -/

/-- The label `y` stands on some instruction. -/
def IsBound (tokens : List Token) (y : String) : Prop :=
  ∃ n, StandsOn tokens y n

/-- A label that stands on some instruction stands on a last one. -/
theorem exists_binds_iff (tokens : List Token) (y : String) :
    (∃ n, Binds tokens y n) ↔ IsBound tokens y := by
  constructor
  · rintro ⟨n, hbinds⟩
    exact ⟨n, hbinds.1⟩
  · rintro ⟨n, hstands⟩
    obtain ⟨table, -, htable⟩ := symbolsOf_permissive tokens
    cases hfound : table.find? y with
    | none => exact absurd hstands (htable.find?_eq_none_iff.mp hfound n)
    | some binding =>
      exact ⟨binding.index, htable.exists_location_iff.mp ⟨binding.location, hfound⟩⟩

/-- The labels that are bound after one more slot.  A new label comes last, and a label that
is bound again keeps its place. -/
def bindName (names : List String) (slot : Slot) : List String :=
  match slot.label with
  | none => names
  | some label => if label.value ∈ names then names else names ++ [label.value]

/-- A slot without a label binds nothing. -/
theorem bindName_of_none {slot : Slot} (h : slot.label = none) (names : List String) :
    bindName names slot = names := by
  simp only [bindName, h]

/-- A slot binds its label unless it is bound already. -/
theorem bindName_of_some {slot : Slot} {label : Located String} (h : slot.label = some label)
    (names : List String) :
    bindName names slot =
      if label.value ∈ names then names else names ++ [label.value] := by
  simp only [bindName, h]

/-- One more slot binds its own label. -/
theorem mem_bindName_iff {names : List String} {slot : Slot} {y : String} :
    y ∈ bindName names slot ↔
      y ∈ names ∨ ∃ label, slot.label = some label ∧ label.value = y := by
  cases hlabel : slot.label with
  | none => simp [bindName_of_none hlabel]
  | some label =>
    rw [bindName_of_some hlabel]
    by_cases hbound : label.value ∈ names
    · simp only [if_pos hbound, Option.some.injEq, exists_eq_left', iff_self_or]
      rintro rfl
      exact hbound
    · simp [hbound, eq_comm]

/-- One more slot binds no label twice. -/
theorem nodup_bindName {names : List String} (h : names.Nodup) (slot : Slot) :
    (bindName names slot).Nodup := by
  cases hlabel : slot.label with
  | none =>
    rw [bindName_of_none hlabel]
    exact h
  | some label =>
    rw [bindName_of_some hlabel]
    by_cases hbound : label.value ∈ names
    · rw [if_pos hbound]
      exact h
    · rw [if_neg hbound, ← List.concat_eq_append]
      exact h.concat hbound

/-- The labels on instructions, each once, in the order in which they are first bound. -/
def boundNames (tokens : List Token) : List String :=
  (Slot.ofTokens tokens).foldl bindName []

/-- Slots bind their labels after those that are bound already. -/
theorem mem_foldl_bindName_iff {names : List String} {slots : List Slot} {y : String} :
    y ∈ slots.foldl bindName names ↔
      y ∈ names ∨ ∃ slot ∈ slots, ∃ label, slot.label = some label ∧ label.value = y := by
  induction slots generalizing names with
  | nil => simp
  | cons slot slots ih =>
    rw [List.foldl_cons, ih, mem_bindName_iff, or_assoc, List.exists_mem_cons_iff]

/-- Slots bind no label twice. -/
theorem nodup_foldl_bindName {names : List String} (h : names.Nodup) (slots : List Slot) :
    (slots.foldl bindName names).Nodup := by
  induction slots generalizing names with
  | nil => exact h
  | cons slot slots ih => exact ih (nodup_bindName h slot)

/-- Each label on an instruction is bound once. -/
theorem nodup_boundNames (tokens : List Token) : (boundNames tokens).Nodup :=
  nodup_foldl_bindName List.nodup_nil _

variable {tokens : List Token} {symbols : List (String × Nat)}

/-- The bound labels are those on instructions. -/
theorem mem_boundNames_iff {y : String} : y ∈ boundNames tokens ↔ IsBound tokens y := by
  rw [boundNames, mem_foldl_bindName_iff, or_iff_right List.not_mem_nil]
  simp only [IsBound, StandsOn, ← Slot.labelAt_ofTokens_iff, Slot.labelAt,
    Option.bind_eq_some_iff, List.mem_iff_getElem?]
  constructor
  · rintro ⟨slot, ⟨n, hslot⟩, label, hlabel, hname⟩
    exact ⟨n, label, ⟨slot, hslot, hlabel⟩, hname⟩
  · rintro ⟨n, label, ⟨slot, hslot, hlabel⟩, hname⟩
    exact ⟨slot, ⟨n, hslot⟩, label, hlabel, hname⟩

/-- The names in a symbol list are the labels on instructions. -/
theorem IsSymbolList.mem_names_iff (h : IsSymbolList tokens symbols) {y : String} :
    y ∈ symbols.map (·.1) ↔ IsBound tokens y := by
  rw [← exists_binds_iff, List.mem_map]
  constructor
  · rintro ⟨⟨z, n⟩, hmem, rfl⟩
    exact ⟨n, (h.2 z n).mp hmem⟩
  · rintro ⟨n, hbinds⟩
    exact ⟨(y, n), (h.2 y n).mpr hbinds, rfl⟩

/-- The names in a symbol list are different from each other. -/
theorem IsSymbolList.nodup_names (h : IsSymbolList tokens symbols) :
    (symbols.map (·.1)).Nodup := by
  rw [List.Nodup, List.pairwise_map]
  refine h.1.imp fun hlt heq => ?_
  rw [heq] at hlt
  exact String.lt_irrefl _ hlt

/-! ## Undefined labels -/

/-- Generating words from some tokens fails on the label `x`, which is not defined.  The
diagnostic `d` suggests the names in `similar`. -/
structure FailsOn (a : Assembler) (tokens : List Token) (x : String) (d : Diagnostic)
    (similar : List String) : Prop where
  outcome : (a.generate tokens).2.outcome = .error (.report d)
  complaint : d.complaint = .undefinedLabel x similar

namespace FailsOn

variable {a : Assembler} {x : String} {d : Diagnostic} {similar : List String}

/-- A label that generation fails on stands nowhere, and the names that are suggested for
it are the close matches among the symbols.  There is no other advice. -/
theorem exists_symbols (h : FailsOn a tokens x d similar) :
    ¬ IsBound tokens x ∧ d.advice = none ∧
      ∃ symbols, IsSymbolList tokens symbols ∧
        similar = closeMatches x.toList (symbols.map (·.1)) := by
  obtain ⟨houtcome, hcomplaint⟩ := h
  have hgenerates := Assembler.generates_generate a tokens
  rw [houtcome] at hgenerates
  generalize (a.generate tokens).1.build.symbols.indices = symbols at hgenerates
  generalize hcause : Refusal.report d = cause at hgenerates
  cases hgenerates with
  | refused hstrict hsymbols hsplit hbefore hrefuses =>
    cases hrefuses with
    | beyond => cases hcause; cases hcomplaint
    | negative => cases hcause
    | undefined hvalue hnone =>
      cases hcause
      cases hcomplaint
      exact ⟨fun ⟨n, hstands⟩ => hnone n hstands, rfl, symbols, hsymbols, rfl⟩
    | unreachable => cases hcause; cases hcomplaint
  | duplicate => cases hcause; cases hcomplaint

/-- The suggested names are the best of the labels on instructions. -/
theorem isBestOf (h : FailsOn a tokens x d similar) :
    IsBestOf (IsBound tokens) x.toList similar := by
  obtain ⟨-, -, symbols, hsymbols, rfl⟩ := h.exists_symbols
  exact (closeMatches_isBestOf x.toList hsymbols.nodup_names).congr fun _ =>
    hsymbols.mem_names_iff.symm

/-- The hint asks for the suggested names. -/
theorem hint_eq (h : FailsOn a tokens x d similar) : d.hint = didYouMean ", " similar := by
  obtain ⟨-, hadvice, -⟩ := h.exists_symbols
  have htake : similar.take 3 = similar := List.take_of_length_le h.isBestOf.length_le
  simp only [Diagnostic.hint, h.complaint, hadvice, htake, Option.getD_none, if_true,
    Option.or_none]

end FailsOn

/-- There is a question exactly when there are names. -/
theorem didYouMean_eq_none_iff {joint : String} {names : List String} :
    didYouMean joint names = none ↔ names = [] := by
  cases names <;> simp [didYouMean]

namespace Assembler

/-- The names that are suggested for an undefined label are the best of the labels on
instructions: at most three different ones, from best to worst, and none of them is the
undefined one.  They are found among these labels in any order, also if the bounds on the
similarity are tried first.  There is a hint unless no label reaches the cutoff, and other
tokens with the same labels on instructions give the same hint. -/
theorem suggestions_in_any_order {a : Assembler} {x : String} {d : Diagnostic}
    {similar : List String} (h : FailsOn a tokens x d similar) :
    IsBestOf (IsBound tokens) x.toList similar ∧ similar.Nodup ∧ x ∉ similar ∧
      (∀ names : List String, names.Perm (boundNames tokens) →
        closeMatches x.toList names = similar ∧
          closeMatches x.toList (screened x.toList names) = similar) ∧
      d.hint = didYouMean ", " similar ∧
      (d.hint = none ↔
        ∀ y, IsBound tokens y → similarity y.toList x.toList < suggestionCutoff) ∧
      ∀ (a' : Assembler) (tokens' : List Token) (d' : Diagnostic) (similar' : List String),
        FailsOn a' tokens' x d' similar' → (∀ y, IsBound tokens' y ↔ IsBound tokens y) →
        similar' = similar ∧ d'.hint = d.hint := by
  have hbest := h.isBestOf
  refine ⟨hbest, hbest.nodup, ?_, ?_, h.hint_eq, ?_, ?_⟩
  · exact fun hx => h.exists_symbols.1 (hbest.sound x hx).1
  · intro names hperm
    have hnodup : names.Nodup := hperm.nodup_iff.mpr (nodup_boundNames tokens)
    have hclose := (closeMatches_isBestOf x.toList hnodup).congr fun y =>
      (hperm.mem_iff.trans mem_boundNames_iff).symm
    have heq := hclose.unique hbest
    exact ⟨heq, (closeMatches_screened x.toList names).trans heq⟩
  · rw [h.hint_eq, didYouMean_eq_none_iff, hbest.eq_nil_iff]
  · intro a' tokens' d' similar' h' hsame
    have heq : similar' = similar :=
      (h'.isBestOf.congr fun y => (hsame y).symm).unique hbest
    exact ⟨heq, by rw [h'.hint_eq, h.hint_eq, heq]⟩

/-- A program whose reading instructions have the given labels, and that ends in a branch to
the label `loo` in the given line. -/
def branchToLoo (names : List String) (line : Int) : List Token :=
  names.flatMap (fun name =>
    [.label ⟨name, ⟨"labels", 1, 1⟩, "." ++ name⟩,
      .instruction ⟨.plain .read none, ⟨"labels", 2, 1⟩, "read"⟩]) ++
    [.instruction ⟨.branch .always "loo", ⟨"labels", line, 1⟩, "b loo"⟩]

/-- Two labels that are equally similar to `loo` are suggested, the later one first, also
when one of them stands on two instructions. -/
theorem suggestions_in_any_order_lookalikes :
    let first := branchToLoo ["look", "loop", "x"] 7
    let second := branchToLoo ["x", "loop", "look", "loop"] 9
    ∃ d d' : Diagnostic, ∃ similar' : List String,
      FailsOn (new true) first "loo" d ["loop", "look"] ∧
      FailsOn (new false) second "loo" d' similar' ∧
      boundNames second = ["x", "loop", "look"] ∧ (boundNames second).Perm (boundNames first) ∧
      (∀ y, IsBound second y ↔ IsBound first y) ∧
      closeMatches "loo".toList (screened "loo".toList (boundNames second)) =
        ["loop", "look"] ∧
      similar' = ["loop", "look"] ∧ d.hint = some "did you mean 'loop', 'look'?" ∧
      d'.hint = d.hint := by
  intro first second
  have hblock : ∀ y ∈ ["look", "loop"],
      matchingBlock? [] y.toList "loo".toList = some ⟨0, 0, 3⟩ := by
    simp only [matchingBlock?, longestRun, getD_placesOf]
    decide +kernel
  have hsimilarity : ∀ y ∈ ["look", "loop"], similarity y.toList "loo".toList = 6 / 7 := by
    intro y hy
    have hpopular : popularChars "loo".toList = [] := by decide
    have hmatched : matchedChars y.toList "loo".toList = 3 := by
      rw [matchedChars, hpopular, matchedWithin_of_some (hblock y hy)]
      simp
    have hratio : ∀ y ∈ ["look", "loop"],
        ratio 3 (y.toList.length + "loo".toList.length) = 6 / 7 := by decide +kernel
    rw [similarity_eq_ratio, hmatched, hratio y hy]
  have hclose : closeMatches "loo".toList ["look", "loop", "x"] = ["loop", "look"] := by
    -- the third label shares no character with the word
    have hscreened : screened "loo".toList ["look", "loop", "x"] = ["look", "loop"] := by
      decide +kernel
    have hcutoff : suggestionCutoff ≤ 6 / 7 := by decide +kernel
    have hlater : isBetterMatch (6 / 7, "look") (6 / 7, "loop") = false := by decide +kernel
    rw [← closeMatches_screened, hscreened]
    simp only [closeMatches, List.map_cons, List.map_nil, hsimilarity "look" (by decide),
      hsimilarity "loop" (by decide)]
    simp [hcutoff, hlater, List.mergeSort, suggestionLimit]
  have hfirst : FailsOn (new true) first "loo"
      ⟨.undefinedLabel "loo" ["loop", "look"], some ⟨"labels", 7, 1⟩, some "b loo", none⟩
      ["loop", "look"] := by
    rw [← hclose]
    exact ⟨rfl, rfl⟩
  have hsecond : FailsOn (new false) second "loo" _ _ := ⟨rfl, rfl⟩
  have hperm : (boundNames second).Perm (boundNames first) := by decide
  have hsame : ∀ y, IsBound second y ↔ IsBound first y := by
    intro y
    rw [← mem_boundNames_iff, ← mem_boundNames_iff, hperm.mem_iff]
  obtain ⟨-, -, -, horder, hhint, -, hindependent⟩ := suggestions_in_any_order hfirst
  obtain ⟨hsimilar, hsameHint⟩ := hindependent _ _ _ _ hsecond hsame
  exact ⟨_, _, _, hfirst, hsecond, by decide, hperm, hsame, (horder _ hperm).2, hsimilar, hhint,
    hsameHint⟩

end Assembler

end Mailroom
