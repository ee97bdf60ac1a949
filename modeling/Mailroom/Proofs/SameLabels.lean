import Mailroom.Proofs.Generation

/-!
# Programs with the same labels

What an assembler makes of a program depends on the names on its instructions, and on what
these instructions say.  The places of tokens only show in complaints.

Main definitions:

- `SameLabels` says that two programs have the same names on their instructions.
- `Refusal.placeless` is a refusal without the places in it.

Main results:

- Theorem `SameLabels.encodes`: in programs with the same labels an instruction is encoded as
  the same words.
- Theorem `SameLabels.refused`: an instruction that is refused in one of them is refused in the
  other for the same reason.
- Theorem `SameLabels.generates`: programs with the same labels and instructions have the same
  words and symbols, or are refused for the same reason.
-/

namespace Mailroom

/-! ## Labels -/

/-- The same names stand on the instructions of two programs. -/
def SameLabels (tokens again : List Token) : Prop :=
  ∀ x n, StandsOn tokens x n ↔ StandsOn again x n

namespace SameLabels

variable {tokens again : List Token} {symbols : List (String × Nat)}

/-- A name has the same last instruction. -/
theorem binds_iff (h : SameLabels tokens again) {x : String} {n : Nat} :
    Binds tokens x n ↔ Binds again x n := by
  have hset : {m | StandsOn tokens x m} = {m | StandsOn again x m} := Set.ext (h x)
  rw [Binds, hset, Binds]

/-- Duplicates are on the same instructions. -/
theorem distinctLabels (h : SameLabels tokens again) (hdistinct : DistinctLabels tokens) :
    DistinctLabels again :=
  fun x m n hm hn => hdistinct x m n ((h x m).mpr hm) ((h x n).mpr hn)

/-- The symbols are the same. -/
theorem isSymbolList (h : SameLabels tokens again) (hsymbols : IsSymbolList tokens symbols) :
    IsSymbolList again symbols :=
  ⟨hsymbols.1, fun x n => (hsymbols.2 x n).trans h.binds_iff⟩

/-- An instruction names the same mailbox. -/
theorem addresses (h : SameLabels tokens again) {i : Instruction} {n : Nat}
    (haddresses : Addresses tokens i n) : Addresses again i n := by
  cases haddresses with
  | plain op remark => exact .plain op remark
  | access op hle => exact .access op hle
  | branch op hbinds hle => exact .branch op (h.binds_iff.mp hbinds) hle

/-- An instruction that says the same is encoded as the same word. -/
theorem encodes (h : SameLabels tokens again) {i j : Located Instruction}
    (hvalue : j.value = i.value) {word : Int} (hencodes : Encodes tokens i word) :
    Encodes again j word := by
  obtain ⟨address, haddresses, hword⟩ := hencodes
  rw [Encodes, hvalue]
  exact ⟨address, h.addresses haddresses, hword⟩

end SameLabels

/-! ## Places in complaints -/

/-- A report without the places in it. -/
def Diagnostic.placeless (d : Diagnostic) : Diagnostic :=
  let complaint :=
    match d.complaint with
    | .duplicateLabel label _ => .duplicateLabel label none
    | other => other
  ⟨complaint, none, none, d.advice⟩

/-- A refusal without the places in it. -/
def Refusal.placeless : Refusal → Refusal
  | report d => .report d.placeless
  | longNumeral cause => .longNumeral cause
  | badAddress cause => .badAddress cause

namespace SameLabels

variable {tokens again : List Token} {names : List String} {symbols : List (String × Nat)}

/-- An instruction that says the same is refused for the same reason. -/
theorem refuses (h : SameLabels tokens again) {i j : Located Instruction}
    (hvalue : j.value = i.value) {e : Refusal} (hrefuses : Refuses tokens names i e) :
    ∃ e', Refuses again names j e' ∧ e'.placeless = e.placeless := by
  cases hrefuses with
  | beyond hi hlt => exact ⟨_, .beyond (hvalue.trans hi) hlt, rfl⟩
  | negative hi hlt => exact ⟨_, .negative (hvalue.trans hi) hlt, rfl⟩
  | @undefined op x hi hnone =>
    exact ⟨_, .undefined (hvalue.trans hi) fun n hn => hnone n ((h x n).mpr hn), rfl⟩
  | unreachable hi hbinds hlt =>
    exact ⟨_, .unreachable (hvalue.trans hi) (h.binds_iff.mp hbinds) hlt, rfl⟩

/-- The first duplicate is on the same instruction and has the same name. -/
theorem firstDuplicate (h : SameLabels tokens again) {earlier label : Located String}
    {m n : Nat} (hfirst : FirstDuplicate tokens earlier m label n) :
    ∃ earlier' label', FirstDuplicate again earlier' m label' n ∧
      label'.value = label.value := by
  obtain ⟨hearlier, hlabel, hlt, hname, hleast⟩ := hfirst
  have hheads : ∀ {l k}, Heads again l k → ∃ l', Heads tokens l' k ∧ l'.value = l.value :=
    fun hl => (h _ _).mpr ⟨_, hl, rfl⟩
  obtain ⟨earlier', hearlier', hvalue⟩ := (h _ _).mp ⟨earlier, hearlier, rfl⟩
  obtain ⟨label', hlabel', hvalue'⟩ := (h _ _).mp ⟨label, hlabel, rfl⟩
  refine ⟨earlier', label', ⟨hearlier', hlabel', hlt, ?_, ?_⟩, hvalue'⟩
  · rw [hvalue, hvalue', hname]
  · intro m' n' l l' hl hl' hmn hll'
    obtain ⟨k, hk, hkl⟩ := hheads hl
    obtain ⟨k', hk', hkl'⟩ := hheads hl'
    exact hleast m' n' k k' hk hk' hmn (by rw [hkl, hkl', hll'])

/-- Instructions that say the same are encoded as the same words. -/
theorem forall₂_encodes (h : SameLabels tokens again) {is js : List (Located Instruction)}
    (hvalues : js.map (·.value) = is.map (·.value)) {words : List Int}
    (hwords : List.Forall₂ (Encodes tokens) is words) :
    List.Forall₂ (Encodes again) js words := by
  have hsaid : List.Forall₂ (fun value (word : Int) => ∃ address,
      Addresses again value address ∧ word = value.opcode.base + address)
      (is.map (·.value)) words := by
    rw [List.forall₂_map_left_iff]
    exact hwords.imp fun i word hencodes => h.encodes rfl hencodes
  rw [← hvalues, List.forall₂_map_left_iff] at hsaid
  exact hsaid

/-- When an instruction is refused after others that have words, an instruction that says the same
is refused after others that say the same. -/
theorem refused (h : SameLabels tokens again) {strict : Bool}
    {before before' after' : List (Located Instruction)} {i j : Located Instruction} {e : Refusal}
    (hstrict : strict = true → DistinctLabels tokens) (hsymbols : IsSymbolList tokens symbols)
    (hbefore : ∀ k ∈ before, ∃ word, Encodes tokens k word)
    (hrefuses : Refuses tokens (symbols.map (·.1)) i e)
    (hsplit : instructionsOf again = before' ++ j :: after')
    (hvalues : before'.map (·.value) = before.map (·.value)) (hvalue : j.value = i.value) :
    ∃ e', Refuses again (symbols.map (·.1)) j e' ∧ Generates strict again (.error e') symbols ∧
      e'.placeless = e.placeless := by
  obtain ⟨e', hrefuses', he⟩ := h.refuses hvalue hrefuses
  refine ⟨e', hrefuses', .refused (fun hs => h.distinctLabels (hstrict hs))
    (h.isSymbolList hsymbols) hsplit ?_ hrefuses', he⟩
  intro k hk
  have hmem : k.value ∈ before.map (·.value) := by
    rw [← hvalues]
    exact List.mem_map_of_mem hk
  obtain ⟨k', hk', hsame⟩ := List.mem_map.mp hmem
  obtain ⟨word, hword⟩ := hbefore k' hk'
  exact ⟨word, h.encodes hsame.symm hword⟩

/-- Programs with the same labels and instructions have the same words and symbols, or are
refused for the same reason. -/
theorem generates (h : SameLabels tokens again)
    (hvalues : (instructionsOf again).map (·.value) = (instructionsOf tokens).map (·.value))
    {strict : Bool} {r : Except Refusal (List Int)}
    (hgenerates : Generates strict tokens r symbols) :
    ∃ r', Generates strict again r' symbols ∧
      r'.mapError Refusal.placeless = r.mapError Refusal.placeless := by
  cases hgenerates with
  | words hstrict hsymbols hwords =>
    exact ⟨_, .words (fun hs => h.distinctLabels (hstrict hs)) (h.isSymbolList hsymbols)
      (h.forall₂_encodes hvalues hwords), rfl⟩
  | @refused symbols before after i e hstrict hsymbols hsplit hbefore hrefuses =>
    rw [hsplit, List.map_append, List.map_cons, List.map_eq_append_iff] at hvalues
    obtain ⟨before', rest, hsplit', hbefore', hrest⟩ := hvalues
    obtain ⟨j, after', rfl, hvalue, -⟩ := List.map_eq_cons_iff.mp hrest
    obtain ⟨e', -, hgenerates, he⟩ :=
      h.refused hstrict hsymbols hbefore hrefuses hsplit' hbefore' hvalue
    exact ⟨.error e', hgenerates, congrArg Except.error he⟩
  | @duplicate earlier label m n hstrict hfirst =>
    obtain ⟨earlier', label', hfirst', hname⟩ := h.firstDuplicate hfirst
    refine ⟨_, .duplicate hstrict hfirst', ?_⟩
    simp only [Except.mapError, Refusal.placeless, Diagnostic.placeless, Mailroom.duplicate, hname]

end SameLabels

end Mailroom
