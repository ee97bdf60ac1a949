import Mailroom.Proofs.MatchingBlocks
import Mathlib.Data.List.Sort

/-!
# Close matches

Which of some names are close to a word.  A better name is more similar to the word, or
equally similar and behind the other one in code point order, so different names are never
equally good, and the best of them do not depend on the order in which they are compared.

Main definitions:

- `Outranks` says that one name is a better suggestion than another.
- `IsBestOf` says that a list holds the best of some names, from best to worst.
- `screened` leaves out candidates whose bounds stay below the cutoff.

Main results:

- Theorem `IsBestOf.unique`: the best names are one list only.
- Theorem `closeMatches_isBestOf`: the close matches are the best of the candidates.
- Theorem `closeMatches_screened`: the candidates may be screened before any blocks are
  matched.
-/

namespace Mailroom.Text

/-! ## Ranks -/

/-- The name `y` is a better suggestion for a word than `z`: it is more similar to the word,
or equally similar and behind `z` in code point order. -/
def Outranks (word : List Char) (y z : String) : Prop :=
  similarity z.toList word < similarity y.toList word ∨
    similarity y.toList word = similarity z.toList word ∧ z < y

/-- Of two names only one is the better suggestion. -/
theorem Outranks.asymm {word : List Char} {y z : String} (h : Outranks word y z) :
    ¬ Outranks word z y := by
  rintro (hless | ⟨hsame, hlt⟩)
  · rcases h with hmore | ⟨heq, -⟩
    · exact lt_asymm hless hmore
    · exact hless.ne heq
  · rcases h with hmore | ⟨-, hgt⟩
    · exact hmore.ne hsame
    · exact String.lt_asymm hlt hgt

instance (word : List Char) : Std.Asymm (Outranks word) :=
  ⟨fun _ _ => Outranks.asymm⟩

/-- A list holds the best of some names for a word, from best to worst.  Names that do not
reach the cutoff count for nothing, and others are left out only if the list is full. -/
structure IsBestOf (names : String → Prop) (word : List Char) (best : List String) : Prop where
  length_le : best.length ≤ suggestionLimit
  ranked : best.Pairwise (Outranks word)
  sound : ∀ y ∈ best, names y ∧ suggestionCutoff ≤ similarity y.toList word
  full : ∀ y, names y → suggestionCutoff ≤ similarity y.toList word → y ∉ best →
    best.length = suggestionLimit ∧ ∀ z ∈ best, Outranks word z y

namespace IsBestOf

variable {names : String → Prop} {word : List Char} {best : List String}

/-- The best names are different from each other. -/
theorem nodup (h : IsBestOf names word best) : best.Nodup :=
  h.ranked.imp fun hranked => by
    rintro rfl
    exact hranked.asymm hranked

/-- There is no best name exactly when no name reaches the cutoff. -/
theorem eq_nil_iff (h : IsBestOf names word best) :
    best = [] ↔ ∀ y, names y → similarity y.toList word < suggestionCutoff := by
  constructor
  · rintro rfl y hy
    by_contra hreaches
    have hlimit := (h.full y hy (not_lt.mp hreaches) List.not_mem_nil).1
    contradiction
  · intro hnone
    refine List.eq_nil_iff_forall_not_mem.mpr fun y hy => ?_
    exact absurd (h.sound y hy).2 (not_le.mpr (hnone y (h.sound y hy).1))

/-- The best names are among any other best names. -/
theorem subset {other : List String} (h : IsBestOf names word best)
    (hother : IsBestOf names word other) : best ⊆ other := by
  intro y hy
  by_contra hmissing
  -- `y` is missing from a full list, and this list and `y` would fit into the other one
  obtain ⟨hname, hreaches⟩ := h.sound y hy
  obtain ⟨hfull, hworse⟩ := hother.full y hname hreaches hmissing
  have hsubset : y :: other ⊆ best := by
    intro z hz
    rcases List.mem_cons.mp hz with rfl | hz
    · exact hy
    · by_contra hleft
      obtain ⟨hnameZ, hreachesZ⟩ := hother.sound z hz
      exact (hworse z hz).asymm ((h.full z hnameZ hreachesZ hleft).2 y hy)
  have hdistinct : (y :: other).Nodup := List.nodup_cons.mpr ⟨hmissing, hother.nodup⟩
  have hle := hdistinct.length_le_of_subset hsubset
  have hlimit := h.length_le
  rw [List.length_cons, hfull] at hle
  omega

/-- The best names are one list only. -/
theorem unique {other : List String} (h : IsBestOf names word best)
    (hother : IsBestOf names word other) : best = other :=
  h.ranked.eq_of_mem_iff hother.ranked fun _ =>
    ⟨fun hy => h.subset hother hy, fun hy => hother.subset h hy⟩

/-- Only the names that there are matter. -/
theorem congr {others : String → Prop} (h : IsBestOf names word best)
    (hsame : ∀ y, others y ↔ names y) : IsBestOf others word best := by
  obtain rfl : others = names := funext fun y => propext (hsame y)
  exact h

end IsBestOf

/-! ## Close matches -/

/-- One candidate is a better suggestion or as good, by similarity and then by name. -/
theorem isBetterMatch_iff {p q : Rat × String} :
    isBetterMatch p q = true ↔ q.1 < p.1 ∨ p.1 = q.1 ∧ q.2 ≤ p.2 := by
  simp [isBetterMatch]

/-- Being better or as good is passed on. -/
theorem isBetterMatch_trans (p q r : Rat × String) (hpq : isBetterMatch p q = true)
    (hqr : isBetterMatch q r = true) : isBetterMatch p r = true := by
  rw [isBetterMatch_iff] at hpq hqr ⊢
  rcases hpq with hlt | ⟨heq, hle⟩ <;> rcases hqr with hlt' | ⟨heq', hle'⟩
  · exact .inl (hlt'.trans hlt)
  · exact .inl (heq' ▸ hlt)
  · exact .inl (heq ▸ hlt')
  · exact .inr ⟨heq.trans heq', String.le_trans hle' hle⟩

/-- Of two candidates one is better or as good. -/
theorem isBetterMatch_total (p q : Rat × String) :
    (isBetterMatch p q || isBetterMatch q p) = true := by
  rw [Bool.or_eq_true, isBetterMatch_iff, isBetterMatch_iff]
  rcases lt_trichotomy p.1 q.1 with hlt | heq | hgt
  · exact .inr (.inl hlt)
  · rcases String.le_total p.2 q.2 with hle | hle
    · exact .inr (.inr ⟨heq.symm, hle⟩)
    · exact .inl (.inr ⟨heq, hle⟩)
  · exact .inl (.inl hgt)

/-- A candidate with its similarity to a word. -/
def scored (word : List Char) (y : String) : Rat × String :=
  (similarity y.toList word, y)

/-- A candidate that is better or as good as another one outranks it. -/
theorem outranks_of_isBetterMatch {word : List Char} {y z : String}
    (h : isBetterMatch (scored word y) (scored word z) = true) (hne : y ≠ z) :
    Outranks word y z := by
  rcases isBetterMatch_iff.mp h with hlt | ⟨heq, hle⟩
  · exact .inl hlt
  · have hlt : z < y := by
      by_contra hnot
      exact hne (String.le_antisymm (String.not_lt.mp hnot) hle)
    exact .inr ⟨heq, hlt⟩

/-- The candidates that reach the cutoff, from best to worst. -/
def ranking (word : List Char) (candidates : List String) : List String :=
  (candidates.filter fun y => decide (suggestionCutoff ≤ similarity y.toList word)).mergeSort
    fun y z => isBetterMatch (scored word y) (scored word z)

/-- The close matches are the first of the ranking. -/
theorem closeMatches_eq_take (word : List Char) (candidates : List String) :
    closeMatches word candidates = (ranking word candidates).take suggestionLimit := by
  have hsort : (ranking word candidates).map (scored word) =
      ((candidates.map (scored word)).filter fun p =>
        decide (suggestionCutoff ≤ p.1)).mergeSort isBetterMatch := by
    rw [List.filter_map]
    exact List.map_mergeSort fun _ _ _ _ => rfl
  have hnames : ((ranking word candidates).map (scored word)).map (·.2) =
      ranking word candidates := by
    rw [List.map_map]
    exact List.map_id _
  calc closeMatches word candidates
      = (((ranking word candidates).map (scored word)).take suggestionLimit).map (·.2) := by
        rw [hsort]
        rfl
    _ = (ranking word candidates).take suggestionLimit := by
        rw [List.map_take, hnames]

/-- The ranking holds the candidates that reach the cutoff. -/
theorem mem_ranking_iff {word : List Char} {candidates : List String} {y : String} :
    y ∈ ranking word candidates ↔
      y ∈ candidates ∧ suggestionCutoff ≤ similarity y.toList word := by
  rw [ranking, List.mem_mergeSort, List.mem_filter, decide_eq_true_eq]

/-- Different candidates are ranked from best to worst. -/
theorem ranking_pairwise (word : List Char) {candidates : List String}
    (hnodup : candidates.Nodup) : (ranking word candidates).Pairwise (Outranks word) := by
  have hsorted : (ranking word candidates).Pairwise fun y z =>
      isBetterMatch (scored word y) (scored word z) = true := by
    apply List.pairwise_mergeSort
    · exact fun _ _ _ => isBetterMatch_trans _ _ _
    · exact fun _ _ => isBetterMatch_total _ _
  have hdistinct : (ranking word candidates).Nodup := (hnodup.filter _).mergeSort
  exact hsorted.imp₂ (fun _ _ => outranks_of_isBetterMatch) hdistinct

/-- The close matches are the best of the candidates. -/
theorem closeMatches_isBestOf (word : List Char) {candidates : List String}
    (hnodup : candidates.Nodup) :
    IsBestOf (· ∈ candidates) word (closeMatches word candidates) := by
  have hranked := ranking_pairwise word hnodup
  rw [closeMatches_eq_take]
  refine ⟨List.length_take_le _ _, hranked.sublist (List.take_sublist _ _), ?_, ?_⟩
  · exact fun y hy => mem_ranking_iff.mp (List.mem_of_mem_take hy)
  · intro y hy hreaches hleft
    have hmem : y ∈ ranking word candidates := mem_ranking_iff.mpr ⟨hy, hreaches⟩
    rw [← List.take_append_drop suggestionLimit (ranking word candidates)] at hranked hmem
    have hlater := (List.mem_append.mp hmem).resolve_left hleft
    refine ⟨?_, fun z hz => (List.pairwise_append.mp hranked).2.2 z hz y hlater⟩
    refine List.length_take_of_le (Nat.le_of_lt ?_)
    rw [← Nat.sub_pos_iff_lt, ← List.length_drop]
    exact List.length_pos_of_mem hlater

/-- The candidates that reach the cutoff with both bounds on their similarity. -/
def screened (word : List Char) (candidates : List String) : List String :=
  candidates.filter fun y =>
    decide (suggestionCutoff ≤ lengthBound y.toList word) &&
      decide (suggestionCutoff ≤ countBound y.toList word)

/-- Candidates whose bounds stay below the cutoff may be left out. -/
theorem closeMatches_screened (word : List Char) (candidates : List String) :
    closeMatches word (screened word candidates) = closeMatches word candidates := by
  have hranking : ranking word (screened word candidates) = ranking word candidates := by
    rw [ranking, screened, List.filter_filter]
    congr 1
    refine List.filter_congr fun y _ => ?_
    rw [Bool.and_eq_left_iff_imp]
    intro hreaches
    have hle := of_decide_eq_true hreaches
    rw [Bool.and_eq_true, decide_eq_true_eq, decide_eq_true_eq]
    exact ⟨hle.trans (similarity_le_lengthBound _ _), hle.trans (similarity_le_countBound _ _)⟩
  rw [closeMatches_eq_take, hranking, closeMatches_eq_take]

end Mailroom.Text
