import Mailroom.Proofs.Fields
import Mailroom.Proofs.Folding

/-!
# Folded texts

A text that has been lower-cased is left alone by lower-casing: the case table does not
lead back into itself, and a sigma in its final form stays final.  Lower-casing makes no
blanks and no punctuation.

Main definitions:

- `LowerForm` lists the forms that a single character has in lower case.
- `IsFolded` says that lower-casing leaves a character alone.

Main results:

- Theorem `isFolded_of_mem_lowerFrom`: a lower-cased text is made of folded characters.
- Theorem `lower_lower`: to lower-case twice is to lower-case once.
- Theorem `field_of_mem_lowerFrom`: a field stays a field when it is lower-cased.
-/

namespace Mailroom.Text

/-! ## The case table -/

/-- No form that the span `s` gives is a code point that the span `t` holds: the ranges do
not meet, or both take every second code point and pass each other by. -/
def CaseSpan.avoids (s t : CaseSpan) : Bool :=
  (s.target + (s.last - s.first)).blt t.first || t.last.blt s.target ||
    ((s.step == 2 || s.last == s.first) && t.step == 2 && s.target % 2 != t.first % 2)

/-- A form that one span gives is not changed by a span that it avoids. -/
theorem CaseSpan.lower?_of_avoids {s t : CaseSpan} (h : s.avoids t = true) {code form : Nat}
    (hform : s.lower? code = some form) : t.lower? form = none := by
  simp only [avoids, Bool.or_eq_true, Bool.and_eq_true, Nat.blt_eq, beq_iff_eq,
    bne_iff_ne] at h
  simp only [lower?, Option.ite_none_right_eq_some, Option.some.injEq] at hform
  simp only [lower?, ite_eq_right_iff, reduceCtorEq, imp_false]
  rcases hform with ⟨⟨hfirst, hlast, hstep⟩, rfl⟩
  rcases h with (hbelow | habove) | ⟨⟨hevery, htwo⟩, hparity⟩
  · omega
  · omega
  · -- both spans take every second code point
    have heven : (code - s.first) % 2 = 0 := by
      rcases hevery with htwo' | hone
      · rwa [htwo'] at hstep
      · omega
    rw [htwo]
    omega

/-- The capital I with a dot and the capital sigma, as spans. -/
def exceptionSpans : List CaseSpan :=
  [⟨0x130, 0x130, 1, 0x69⟩, ⟨0x3A3, 0x3A3, 1, 0x3C3⟩]

/-- The case table leads neither back into itself nor to one of the exceptions. -/
theorem lowercaseSpans_avoid :
    (lowercaseSpans.all fun s =>
      (exceptionSpans ++ lowercaseSpans).all fun t => s.avoids t) = true := by
  decide +kernel

/-- The case table leads to letters only: to code points between the blanks. -/
theorem lowercaseSpans_letters :
    ∀ s ∈ lowercaseSpans,
      0x61 ≤ s.target ∧ s.target + (s.last - s.first) ≤ 0x7A ∨
        0xA1 ≤ s.target ∧ s.target + (s.last - s.first) < 0x1680 ∨
        0x1681 ≤ s.target ∧ s.target + (s.last - s.first) < 0x2000 ∨
        0x2060 ≤ s.target ∧ s.target + (s.last - s.first) < 0x3000 ∨
        0x3001 ≤ s.target := by
  decide +kernel

/-- The case table leads to characters. -/
theorem toNat_ofNat_of_lower? {s : CaseSpan} (hs : s ∈ lowercaseSpans) {code form : Nat}
    (hform : s.lower? code = some form) : (Char.ofNat form).toNat = form := by
  simp only [CaseSpan.lower?, Option.ite_none_right_eq_some, Option.some.injEq] at hform
  have hvalid : form.isValidChar := by
    unfold Nat.isValidChar
    rcases lowercaseSpans_outside s hs with rfl | rfl | ⟨-, -, hvalid⟩
    · simp only at hform
      omega
    · simp only at hform
      omega
    · omega
  rw [Char.ofNat, dif_pos hvalid]
  rfl

/-! ## Single characters -/

/-- The forms of a character in lower case, apart from the capital sigma. -/
inductive LowerForm (c : Char) : Char → Prop
  | same (hspans : ∀ s ∈ lowercaseSpans, s.lower? c.toNat = none) (hdotted : c ≠ '\u0130') :
      LowerForm c c
  | letterI (hdotted : c = '\u0130') : LowerForm c 'i'
  | dotAbove (hdotted : c = '\u0130') : LowerForm c '\u0307'
  | span {s : CaseSpan} {d : Char} (hs : s ∈ lowercaseSpans)
      (hform : s.lower? c.toNat = some d.toNat) : LowerForm c d

/-- Lower-casing replaces a character by its forms. -/
theorem lowerForm_of_mem {c d : Char} (h : d ∈ lowerChar c) : LowerForm c d := by
  unfold lowerChar at h
  by_cases hdotted : c = '\u0130'
  · rw [if_pos hdotted] at h
    rcases List.mem_pair.mp h with rfl | rfl
    · exact .letterI hdotted
    · exact .dotAbove hdotted
  · rw [if_neg hdotted] at h
    cases hfound : lowercaseSpans.findSome? (·.lower? c.toNat) with
    | none =>
      rw [hfound] at h
      obtain rfl := List.mem_singleton.mp h
      exact .same (List.findSome?_eq_none_iff.mp hfound) hdotted
    | some form =>
      rw [hfound] at h
      obtain rfl := List.mem_singleton.mp h
      rcases List.exists_of_findSome?_eq_some hfound with ⟨s, hs, hform⟩
      exact .span hs (by rw [hform, toNat_ofNat_of_lower? hs hform])

/-- Lower-casing leaves a character alone, wherever it stands. -/
def IsFolded (c : Char) : Prop :=
  c ≠ '\u03A3' ∧ lowerChar c = [c]

/-- A character in no span, other than the exceptions, is left alone. -/
theorem isFolded_of_spans {c : Char} (hsigma : c ≠ '\u03A3') (hdotted : c ≠ '\u0130')
    (hspans : ∀ s ∈ lowercaseSpans, s.lower? c.toNat = none) : IsFolded c := by
  refine ⟨hsigma, ?_⟩
  rw [lowerChar, if_neg hdotted, List.findSome?_eq_none_iff.mpr hspans]

/-- The forms of a character are left alone. -/
theorem LowerForm.isFolded {c d : Char} (h : LowerForm c d) (hc : c ≠ '\u03A3') :
    IsFolded d := by
  cases h with
  | same hspans hdotted => exact isFolded_of_spans hc hdotted hspans
  | letterI => exact ⟨by decide, by decide +kernel⟩
  | dotAbove => exact ⟨by decide, by decide +kernel⟩
  | @span s d hs hform =>
    have havoid : ∀ t ∈ exceptionSpans ++ lowercaseSpans, t.lower? d.toNat = none := by
      intro t ht
      have hall := List.all_eq_true.mp lowercaseSpans_avoid s hs
      exact CaseSpan.lower?_of_avoids (List.all_eq_true.mp hall t ht) hform
    refine isFolded_of_spans ?_ ?_ fun t ht => havoid t (List.mem_append_right _ ht)
    · rintro rfl
      exact absurd (havoid ⟨0x3A3, 0x3A3, 1, 0x3C3⟩ (by simp [exceptionSpans])) (by decide)
    · rintro rfl
      exact absurd (havoid ⟨0x130, 0x130, 1, 0x69⟩ (by simp [exceptionSpans])) (by decide)

/-- A form of a character that may stand in a field may stand there as well. -/
theorem LowerForm.field {c d : Char} (h : LowerForm c d)
    (hc : isBlank c = false ∧ c ≠ ';') : isBlank d = false ∧ d ≠ ';' := by
  cases h with
  | same => exact hc
  | letterI => decide
  | dotAbove => decide
  | @span s d hs hform =>
    simp only [CaseSpan.lower?, Option.ite_none_right_eq_some, Option.some.injEq] at hform
    have hletter := lowercaseSpans_letters s hs
    constructor
    · simp only [isBlank, Bool.or_eq_false_iff, Bool.and_eq_false_iff, decide_eq_false_iff_not,
        beq_eq_false_iff_ne]
      omega
    · rintro rfl
      have hcode : (';' : Char).toNat = 0x3B := rfl
      omega

/-! ## Texts -/

/-- A text of folded characters is left alone. -/
theorem lowerFrom_of_isFolded {cs : List Char} (h : ∀ c ∈ cs, IsFolded c)
    (before : List Char) : lowerFrom before cs = cs := by
  induction cs generalizing before with
  | nil => rfl
  | cons c after ih =>
    obtain ⟨hsigma, hform⟩ := h c List.mem_cons_self
    rw [lowerFrom, if_neg hsigma, hform, ih fun d hd => h d (List.mem_cons_of_mem _ hd)]
    rfl

/-- What holds of the two small sigmas, and of the other forms of the characters of a text,
holds of the characters of the lower-cased text. -/
theorem forall_mem_lowerFrom {P : Char → Prop} (hfinal : P '\u03C2') (hmedial : P '\u03C3')
    {cs : List Char} (h : ∀ c ∈ cs, c ≠ '\u03A3' → ∀ d, LowerForm c d → P d)
    (before : List Char) : ∀ d ∈ lowerFrom before cs, P d := by
  induction cs generalizing before with
  | nil => exact fun d hd => absurd hd List.not_mem_nil
  | cons c after ih =>
    intro d hd
    rw [lowerFrom] at hd
    rcases List.mem_append.mp hd with hd | hd
    · by_cases hsigma : c = '\u03A3'
      · rw [if_pos hsigma] at hd
        split at hd <;> obtain rfl := List.mem_singleton.mp hd
        · exact hfinal
        · exact hmedial
      · rw [if_neg hsigma] at hd
        exact h c List.mem_cons_self hsigma d (lowerForm_of_mem hd)
    · exact ih (fun e he => h e (List.mem_cons_of_mem _ he)) _ d hd

/-- A lower-cased text is made of folded characters. -/
theorem isFolded_of_mem_lowerFrom (before cs : List Char) :
    ∀ d ∈ lowerFrom before cs, IsFolded d :=
  forall_mem_lowerFrom ⟨by decide, by decide +kernel⟩ ⟨by decide, by decide +kernel⟩
    (fun _ _ hsigma _ hform => hform.isFolded hsigma) before

/-- To lower-case twice is to lower-case once. -/
@[simp] theorem lower_lower (cs : List Char) : lower (lower cs) = lower cs :=
  lowerFrom_of_isFolded (isFolded_of_mem_lowerFrom [] cs) []

/-- A field stays a field when it is lower-cased. -/
theorem field_of_mem_lowerFrom {cs : List Char} (h : ∀ c ∈ cs, isBlank c = false ∧ c ≠ ';')
    (before : List Char) : ∀ d ∈ lowerFrom before cs, isBlank d = false ∧ d ≠ ';' :=
  forall_mem_lowerFrom (by decide) (by decide) (fun c hc _ _ hform => hform.field (h c hc)) before

end Mailroom.Text
